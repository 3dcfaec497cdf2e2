-- SUMMARY: Taxonomy builds in the background: they are triggered, cancelled and go on beside each other, and one at most may write for a dataset.
import AgentProtocol.A2X.Checkpoint
import AgentProtocol.Lib.Run

/-!
# Build jobs

`trigger_build` makes a job with status `running` and starts a builder in the background. A new
build is refused only while that status stands. `cancel_build` sets the status at once and raises a
flag, at which the builder looks between its phases.

The two calls are one step each. A builder goes by calls of the model, applied splits and single
file writes, and what it does between two of them is a step of its own. What the services are, what the
model answers and what raises an exception is arbitrary in every step.
-/

namespace AgentProtocol.A2X.BuildJobs

open Lib

/-! ## Jobs -/

inductive Status where
  | running
  | cancelled
  | done
  | error
  deriving DecidableEq

/-- A value of `_build_jobs`, without its log. -/
structure Job where
  status : Status
  message : String
  startedAt : ℕ
  finishedAt : Option ℕ := none

/-- `BuildRequest`. -/
structure Request where
  resume : String := "no"
  /-- The configuration that the parameters make. -/
  cfg : Config
  logLevel : Option String := none

/-- The modes that `build` takes; any other raises a `ValueError`. -/
def Request.mode (req : Request) : Option Resume :=
  if req.resume = "no" then some .no
  else if req.resume = "keyword" then some .keyword
  else if req.resume = "yes" then some .yes
  else none

/-- `upper`, for a character. The first four are the others that become letters of the names below. -/
def upperChar (c : Char) : List Char :=
  if c = 'ſ' then ['S']
  else if c = 'ı' then ['I']
  else if c = 'ﬅ' ∨ c = 'ﬆ' then ['S', 'T']
  else [c.toUpper]

/-- Whether the level can be set. It is looked up among everything that the module `logging` has in upper
case, and two of these are not levels. -/
def Request.acceptsLevel (req : Request) : Bool :=
  String.ofList ((req.logLevel.getD "").toList.flatMap upperChar) ∉ ["BASIC_FORMAT", "_STYLES"]

/-! ## The output directory -/

inductive FileName where
  | taxonomy
  | classes
  | keywords
  | buildConfig
  | assignments
  deriving DecidableEq

/-- `_BUILD_FILES`, which is a set: the order is of no account. -/
def buildFiles : List FileName := [.taxonomy, .classes, .keywords, .buildConfig, .assignments]

/-- The files of a build, with the parameters that `build_config.json` has. -/
structure Directory where
  files : Files := {}
  config : Option Config := none

/-- What a builder does in one go, between two moments at which it decides. -/
inductive Act where
  /-- A call of the model. -/
  | call
  /-- A split is applied to what the builder holds. -/
  | applySplit
  | unlink (name : FileName)
  | write (w : FileWrite)

/-- Whether it is done to an output file. -/
def Act.touches : Act → Bool
  | .call | .applySplit => false
  | .unlink _ | .write _ => true

namespace Directory

def unlink (d : Directory) : FileName → Directory
  | .taxonomy => { d with files := { d.files with taxonomy := none } }
  | .classes => { d with files := { d.files with classes := none } }
  | .keywords => { d with files := { d.files with keywords := none } }
  | .buildConfig => { files := { d.files with serviceHash := none }, config := none }
  | .assignments => { d with files := { d.files with assignments := none } }

def write (cfg : Config) (d : Directory) : FileWrite → Directory
  | .buildConfig serviceHash => { files := d.files.write (.buildConfig serviceHash), config := some cfg }
  | w => { d with files := d.files.write w }

def perform (cfg : Config) (d : Directory) : Act → Directory
  | .call | .applySplit => d
  | .unlink name => d.unlink name
  | .write w => d.write cfg w

end Directory

def cleanOutput (preserveKeywords : Bool) : List Act :=
  (buildFiles.filter fun name => !(preserveKeywords && name = .keywords)).map .unlink

/-! ## Builders -/

/-- What a builder meets in a step. -/
structure Input where
  now : ℕ := 0
  /-- An exception is raised in the step. -/
  raises : Bool := false
  /-- The text of the exception, if there is one. -/
  failure : String := ""
  /-- Whether `service.json` is there. -/
  registered : Bool := true
  /-- What is read from it, if that succeeds. -/
  services : Option (List Service) := some []
  llm : Llm
  /-- So many calls of the model before the keywords of a node are saved, and so many later. -/
  calls : ℕ × ℕ := (0, 0)

/-- Where a builder is in `_run_taxonomy_build` and `build`, between two acts. -/
inductive Point where
  /-- Before it looks for `service.json`. -/
  | preparing
  /-- Phase 0. -/
  | entering
  /-- The check of phase 1; what was loaded is kept, if the build is resumed. -/
  | checking (loaded : Option Files)
  /-- `_load_services_index`. -/
  | loading (loaded : Option Files)
  /-- The check of phase 2. -/
  | starting (b : Build)
  /-- The next round of `_run_bfs`, or the check after the last one. -/
  | splitting (b : Build)
  /-- The check of phase 3. -/
  | crossing (b : Build)
  /-- `build` has returned. -/
  | reporting
  /-- An exception is about to be reported. -/
  | raised (message : String)
  | finished

inductive Stage where
  /-- The task has been added, but has not begun. -/
  | queued
  /-- It reports to a job, has some acts to do and then goes on from a point. -/
  | started (job : ℕ) (todo : List Act) (point : Point)

structure Builder where
  dataset : String
  request : Request
  /-- The `threading.Event` that it looks at. -/
  stop : ℕ
  stage : Stage := .queued

/-! ### What comes after a point -/

section Next

variable (sameConfig : Config → Config → Bool) (req : Request) (stop : Bool) (d : Directory) (i : Input)

/-- `_evaluate_resume`; `sameConfig` is the comparison of `matches_saved_config`. -/
def evaluate : Action :=
  match d.config with
  | none => .rebuild
  | some saved => if sameConfig saved req.cfg then evaluateResume d.files else .rebuild

/-- Phase 0. -/
def enter : List Act × Point :=
  match req.mode with
  | none => ([], .raised i.failure)
  | some .no => (cleanOutput false, .checking none)
  | some .keyword => (cleanOutput true, .checking none)
  | some .yes => match evaluate sameConfig req d with
    | .skip => ([], .reporting)
    | .resume => if d.files.classes.isSome then ([], .checking (some d.files)) else ([], .raised i.failure)
    | .rebuild => (cleanOutput false, .checking none)

/-- The build that begins with these services, from a checkpoint or from scratch. -/
def begun (cfg : Config) (loaded : Option Files) (services : List Service) : Option Build :=
  match loaded with
  | none => some (Build.start cfg services)
  | some files => Build.load cfg services files

def load (loaded : Option Files) : List Act × Point :=
  match i.services.bind (begun req.cfg loaded) with
  | none => ([], .raised i.failure)
  | some b => ([], .starting b)

/-- Phase 2 up to the first save. -/
def begin (b : Build) : List Act × Point :=
  if stop then ([], .finished)
  else if i.raises then ([], .raised i.failure)
  else if b.phase = .bfs then ((b.saveOutput .bfs).map .write, .splitting b)
  else ([], .crossing b)

/-- What is done to split a node, up to the save. -/
def splitActs (b : Build) (id : String) : List Act :=
  let split := b.splitOf req.cfg i.llm id
  List.replicate i.calls.1 Act.call ++ (b.saveKeywords split.2).map .write ++ List.replicate i.calls.2 Act.call ++
    split.1.elim [] fun result => .applySplit :: ((b.apply id result).saveOutput .bfs).map .write

/-- A round of `_run_bfs`. The keywords are looked for in the directory. -/
def splitRound (b : Build) : List Act × Point :=
  let b := { b with keywords := d.files.keywords }
  let next := b.splitNext req.cfg i.llm
  match b.queue with
  | [] =>
    if stop then ([], .finished)
    else ((b.saveOutput .crossDomain).map .write, .crossing { b with phase := .crossDomain })
  | (id, _) :: _ =>
    if b.nodeServices id = [] then ([], .splitting next)
    else (splitActs req i b id, if next.phase = .failed then .raised i.failure else .splitting next)

/-- Phases 3 and 4. -/
def cross (b : Build) : List Act × Point :=
  if stop then ([], .finished)
  else
    let next := b.finish req.cfg i.llm
    if next.phase = .complete then
      (List.replicate i.calls.1 Act.call ++ (next.saveOutput .complete).map .write, .reporting)
    else (List.replicate i.calls.1 Act.call, .raised i.failure)

/-- What a builder does next, and where it goes on afterwards. The points at which it reports are
not among these. -/
def Point.next : Point → List Act × Point
  | .entering => if i.raises then ([], .raised i.failure) else enter sameConfig req d i
  | .checking loaded => ([], if stop then .finished else .loading loaded)
  | .loading loaded => load req i loaded
  | .starting b => begin stop i b
  | .splitting b => splitRound req stop d i b
  | .crossing b => cross req stop i b
  | point => ([], point)

end Next

/-! ## The state of the router -/

structure World where
  jobs : List Job := []
  /-- The events; whether each is set. -/
  stops : List Bool := []
  /-- `_build_jobs` -/
  buildJobs : Dict String ℕ := ∅
  /-- `_cancel_flags` -/
  cancelFlags : Dict String ℕ := ∅
  builders : List Builder := []
  directories : String → Directory := fun _ => {}

namespace World

variable (w : World)

def statusOf (job : ℕ) : Option Status := w.jobs[job]?.map Job.status

/-- The status of a dataset's job; it is idle if there is none. -/
def status (dataset : String) : Option Status := (w.buildJobs.lookup dataset).bind w.statusOf

def isSet (stop : ℕ) : Bool := w.stops[stop]? = some true

/-- `trigger_build`, or the refusal. -/
def triggerBuild (dataset : String) (req : Request) (now : ℕ) : Except String World :=
  if w.status dataset = some .running then .error ("Build already running for '" ++ dataset ++ "'")
  else .ok { w with
    jobs := w.jobs ++ [{ status := .running, message := "Building, please wait...", startedAt := now }]
    stops := w.stops ++ [false]
    buildJobs := w.buildJobs.set dataset w.jobs.length
    cancelFlags := w.cancelFlags.set dataset w.stops.length
    builders := w.builders ++ [{ dataset, request := req, stop := w.stops.length }] }

def report (job : ℕ) (status : Status) (message : String) (now : ℕ) : World :=
  { w with jobs := w.jobs.modify job fun j => { j with status, message, finishedAt := some now } }

/-- `cancel_build`, or the refusal. -/
def cancelBuild (dataset : String) (now : ℕ) : Except String World :=
  match w.buildJobs.lookup dataset with
  | none => .error ("No running build for '" ++ dataset ++ "'")
  | some job =>
    if w.statusOf job ≠ some .running then .error ("No running build for '" ++ dataset ++ "'")
    else
      let raised := match w.cancelFlags.lookup dataset with
        | none => w
        | some stop => { w with stops := w.stops.set stop true }
      .ok (raised.report job .cancelled "Build cancelled" now)

/-- The builder is somewhere else now. -/
def setStage (n : ℕ) (stage : Stage) : World :=
  { w with builders := w.builders.modify n fun b => { b with stage } }

def perform (b : Builder) (a : Act) : World :=
  { w with directories := Function.update w.directories b.dataset ((w.directories b.dataset).perform b.request.cfg a) }

def missingServices (dataset : String) : String :=
  "No services registered for dataset '" ++ dataset ++ "' yet " ++
    "(service.json missing). Register at least one service first."

def goOn (sameConfig : Config → Config → Bool) (n : ℕ) (b : Builder) (job : ℕ) (i : Input) : Point → World
  | .preparing =>
    if i.raises then w.setStage n (.started job [] (.raised i.failure))
    else if i.registered then w.setStage n (.started job [] .entering)
    else (w.report job .error (missingServices b.dataset) i.now).setStage n (.started job [] .finished)
  | .reporting =>
    -- A cancelled job keeps its status.
    if w.statusOf job = some .running then
      (w.report job .done "Taxonomy build complete" i.now).setStage n (.started job [] .finished)
    else w.setStage n (.started job [] .finished)
  | .raised message => (w.report job .error message i.now).setStage n (.started job [] .finished)
  | .finished => w
  | point =>
    let next := point.next sameConfig b.request (w.isSet b.stop) (w.directories b.dataset) i
    w.setStage n (.started job next.1 next.2)

/-- The next step of a builder. -/
def build (sameConfig : Config → Config → Bool) (n : ℕ) (i : Input) : World :=
  match w.builders[n]? with
  | none => w
  | some b => match b.stage with
    | .queued => match w.buildJobs.lookup b.dataset with
      | none => w
      | some job =>
        -- The level is set before anything is caught, so nobody is told if that fails.
        w.setStage n (.started job [] (if b.request.acceptsLevel then .preparing else .finished))
    | .started job (a :: todo) point =>
      if i.raises then w.setStage n (.started job [] (.raised i.failure))
      else (w.perform b a).setStage n (.started job todo point)
    | .started job [] point => w.goOn sameConfig n b job i point

end World

inductive Event where
  | trigger (dataset : String) (req : Request) (now : ℕ)
  | cancel (dataset : String) (now : ℕ)
  | build (builder : ℕ) (input : Input)

/-- A call that is refused changes nothing. -/
def step (sameConfig : Config → Config → Bool) (w : World) : Event → World
  | .trigger dataset req now => (w.triggerBuild dataset req now).toOption.getD w
  | .cancel dataset now => (w.cancelBuild dataset now).toOption.getD w
  | .build builder input => w.build sameConfig builder input

/-! ## What is to hold -/

section Spec

variable (sameConfig : Config → Config → Bool) (w : World)

/-- The next step is to write or to delete an output file. -/
def Stage.writes : Stage → Bool
  | .started _ (a :: _) _ => a.touches
  | _ => false

def World.Writes (n : ℕ) : Prop := ∃ b ∈ w.builders[n]?, b.stage.writes = true

instance World.Writes.decidable (n : ℕ) : Decidable (w.Writes n) :=
  inferInstanceAs (Decidable (∃ b ∈ w.builders[n]?, b.stage.writes = true))

/-- It may come to that, whatever happens before. -/
def World.Able (n : ℕ) : Prop := ∃ evs, (run (step sameConfig) w evs).Writes n

/-- The builder's cancellation has been acknowledged. -/
def World.Cancelled (n : ℕ) : Prop := ∃ b ∈ w.builders[n]?, w.isSet b.stop = true

instance World.Cancelled.decidable (n : ℕ) : Decidable (w.Cancelled n) :=
  inferInstanceAs (Decidable (∃ b ∈ w.builders[n]?, w.isSet b.stop = true))

structure OneBuilder : Prop where
  /-- Two builders of a dataset are not both able to write. -/
  alone : ∀ m n b b', w.builders[m]? = some b → w.builders[n]? = some b' → b.dataset = b'.dataset →
    w.Able sameConfig m → w.Able sameConfig n → m = n
  /-- A builder that was cancelled does not write any more. -/
  heeded : ∀ n, w.Cancelled n → ¬ w.Able sameConfig n
  /-- A job is no longer reported as running once its builder has ended. -/
  ended : ∀ (n : ℕ) (b : Builder) (job : ℕ), w.builders[n]? = some b → b.stage = .started job [] .finished →
    w.statusOf job ≠ some .running

/-- No job changes its status in a step, unless it was running. -/
def Settled (w w' : World) : Prop :=
  ∀ job status, w.statusOf job = some status → status ≠ .running → w'.statusOf job = some status

end Spec

/-! ## When it holds -/

/-- From here the builder looks at its flag before it writes. -/
def Point.heeds : Point → Bool
  | .checking _ | .loading _ | .starting _ | .crossing _ | .reporting | .finished => true
  -- The rounds that are left split nothing.
  | .splitting b => b.queue.all fun q => (b.nodeServices q.1).isEmpty
  | .preparing | .entering | .raised _ => false

def Stage.heeds : Stage → Bool
  | .started _ [] point => point.heeds
  | _ => false

/-- If the builder is about to load the services, it can. -/
def Builder.loads (b : Builder) (i : Input) : Bool :=
  match b.stage with
  | .started _ [] (.loading loaded) => (i.services.bind (begun b.request.cfg loaded)).isSome
  | _ => true

/-- A build is started at a level that can be set and cancelled where its builder heeds that, and a cancelled
builder does not fail to load the services. -/
def Timely (w : World) : Event → Prop
  | .trigger dataset req _ => w.status dataset ≠ some .running → req.acceptsLevel = true
  | .cancel dataset _ => w.status dataset = some .running →
      ∀ b ∈ w.builders, w.cancelFlags.lookup dataset = some b.stop → b.stage.heeds = true
  | .build n i => ∀ b ∈ w.builders[n]?, w.isSet b.stop = true → b.loads i = true

instance Timely.decidable (w : World) : ∀ ev, Decidable (Timely w ev)
  | .trigger dataset req _ => inferInstanceAs (Decidable (w.status dataset ≠ some .running → req.acceptsLevel = true))
  | .cancel dataset _ => inferInstanceAs (Decidable (w.status dataset = some .running →
      ∀ b ∈ w.builders, w.cancelFlags.lookup dataset = some b.stop → b.stage.heeds = true))
  | .build n i => inferInstanceAs (Decidable (∀ b ∈ w.builders[n]?, w.isSet b.stop = true → b.loads i = true))

/-! ### Going on from a point -/

/-- The points that have a `next` of their own. -/
def Point.going : Point → Bool
  | .entering | .checking _ | .loading _ | .starting _ | .splitting _ | .crossing _ => true
  | .preparing | .reporting | .raised _ | .finished => false

/-- With its flag set, the builder does not write from here on. -/
def Point.quiet : Point → Bool
  | .raised _ => true
  | point => point.heeds

section Next

variable (sameConfig : Config → Config → Bool) (req : Request) {stop : Bool} (d : Directory) (i : Input)

theorem Point.quiet_of_heeds : ∀ {point : Point}, point.heeds = true → point.quiet = true
  | .checking _, _ | .loading _, _ | .starting _, _ | .crossing _, _ | .reporting, _ | .finished, _ => rfl
  | .splitting _, h => h

theorem splitRound_heeds {b : Build} (h : (Point.splitting b).heeds = true) :
    (splitRound req true d i b).1 = [] ∧ (splitRound req true d i b).2.heeds = true := by
  unfold splitRound
  dsimp only
  split
  · exact ⟨rfl, rfl⟩
  · rename_i id depth queue hqueue
    change b.queue = _ at hqueue
    simp only [Point.heeds, hqueue, List.all_cons, Bool.and_eq_true, List.isEmpty_iff] at h
    have hidle : Build.nodeServices { b with keywords := d.files.keywords } id = [] := h.1
    rw [if_pos hidle]
    refine ⟨rfl, ?_⟩
    have hnext : Build.splitNext req.cfg i.llm { b with keywords := d.files.keywords } =
        { b with keywords := d.files.keywords, queue } := by
      unfold Build.splitNext
      dsimp only
      rw [hqueue]
      exact if_pos hidle
    rw [hnext]
    exact h.2

variable {point : Point}

theorem next_heeds (hheeds : point.heeds = true) (hgoing : point.going = true)
    (hloads : ∀ loaded, point = .loading loaded → (i.services.bind (begun req.cfg loaded)).isSome = true) :
    (point.next sameConfig req true d i).1 = [] ∧ (point.next sameConfig req true d i).2.heeds = true := by
  cases point with
  | preparing | reporting | raised | finished => cases hgoing
  | entering => cases hheeds
  | checking | starting | crossing => exact ⟨rfl, rfl⟩
  | loading loaded =>
    obtain ⟨b, hbegun⟩ := Option.isSome_iff_exists.mp (hloads loaded rfl)
    simp only [Point.next, load, hbegun]
    exact ⟨trivial, rfl⟩
  | splitting b => exact splitRound_heeds req d i hheeds

theorem next_quiet (hquiet : point.quiet = true) (hgoing : point.going = true) :
    (point.next sameConfig req true d i).1 = [] ∧ (point.next sameConfig req true d i).2.quiet = true := by
  cases point with
  | preparing | reporting | raised | finished => cases hgoing
  | entering => cases hquiet
  | checking | starting | crossing => exact ⟨rfl, rfl⟩
  | loading loaded =>
    simp only [Point.next, load]
    split
    · exact ⟨rfl, rfl⟩
    · exact ⟨rfl, rfl⟩
  | splitting b =>
    obtain ⟨htodo, hheeds⟩ := splitRound_heeds req d i hquiet
    exact ⟨htodo, Point.quiet_of_heeds hheeds⟩

theorem next_finished (hgoing : point.going = true) (h : (point.next sameConfig req stop d i).2 = .finished) :
    stop = true ∧ (point.next sameConfig req stop d i).1 = [] := by
  -- Every branch that is not behind a raised flag goes on to another point.
  cases point with
  | preparing | reporting | raised | finished => cases hgoing
  | entering =>
    exfalso
    simp only [Point.next, enter] at h
    repeat' split at h
    all_goals cases h
  | checking loaded =>
    simp only [Point.next] at h ⊢
    split at h
    · rename_i hstop
      exact ⟨hstop, trivial⟩
    · cases h
  | loading loaded =>
    exfalso
    simp only [Point.next, load] at h
    split at h
    · cases h
    cases h
  | starting b =>
    simp only [Point.next, begin] at h ⊢
    cases stop with
    | true => exact ⟨rfl, rfl⟩
    | false =>
      simp only [Bool.false_eq_true, if_false] at h
      repeat' split at h
      all_goals cases h
  | splitting b =>
    simp only [Point.next, splitRound] at h ⊢
    split at h
    · cases stop with
      | true => exact ⟨rfl, rfl⟩
      | false => cases h
    · repeat' split at h
      all_goals cases h
  | crossing b =>
    simp only [Point.next, cross] at h ⊢
    cases stop with
    | true => exact ⟨rfl, rfl⟩
    | false =>
      simp only [Bool.false_eq_true, if_false] at h
      split at h
      · cases h
      cases h

end Next

/-! ### What a step of a builder can do -/

section Moved

variable (sameConfig : Config → Config → Bool) (w : World) (b : Builder) (i : Input)

/-- What a builder's step does beside its new stage, and that stage. -/
inductive Moved : World → Stage → Prop where
  | began {job : ℕ} (hstage : b.stage = .queued) (hjob : w.buildJobs.lookup b.dataset = some job) :
      Moved w (.started job [] (if b.request.acceptsLevel then .preparing else .finished))
  | acted {job : ℕ} {a : Act} {todo : List Act} {point : Point} (hstage : b.stage = .started job (a :: todo) point) :
      Moved (w.perform b a) (.started job todo point)
  | broke {job : ℕ} {a : Act} {todo : List Act} {point : Point} (hstage : b.stage = .started job (a :: todo) point) :
      Moved w (.started job [] (.raised i.failure))
  | unprepared {job : ℕ} (hstage : b.stage = .started job [] .preparing) : Moved w (.started job [] (.raised i.failure))
  | prepared {job : ℕ} (hstage : b.stage = .started job [] .preparing) : Moved w (.started job [] .entering)
  | missing {job : ℕ} (hstage : b.stage = .started job [] .preparing) :
      Moved (w.report job .error (World.missingServices b.dataset) i.now) (.started job [] .finished)
  | completed {job : ℕ} (hstage : b.stage = .started job [] .reporting) (hrunning : w.statusOf job = some .running) :
      Moved (w.report job .done "Taxonomy build complete" i.now) (.started job [] .finished)
  | kept {job : ℕ} (hstage : b.stage = .started job [] .reporting) (hnot : w.statusOf job ≠ some .running) :
      Moved w (.started job [] .finished)
  | failed {job : ℕ} {message : String} (hstage : b.stage = .started job [] (.raised message)) :
      Moved (w.report job .error message i.now) (.started job [] .finished)
  | went {job : ℕ} {point : Point} (hstage : b.stage = .started job [] point) (hgoing : point.going = true) :
      Moved w (.started job (point.next sameConfig b.request (w.isSet b.stop) (w.directories b.dataset) i).1
        (point.next sameConfig b.request (w.isSet b.stop) (w.directories b.dataset) i).2)

variable {w b}

theorem build_cases {n : ℕ} (hb : w.builders[n]? = some b) : w.build sameConfig n i = w ∨
    ∃ w' stage, Moved sameConfig w b i w' stage ∧ w.build sameConfig n i = w'.setStage n stage := by
  simp only [World.build, hb]
  cases hstage : b.stage with
  | queued =>
    dsimp only
    cases hjob : w.buildJobs.lookup b.dataset with
    | none => exact .inl rfl
    | some job => exact .inr ⟨_, _, .began hstage hjob, rfl⟩
  | started job todo point =>
    cases todo with
    | cons a todo =>
      dsimp only
      split
      · exact .inr ⟨_, _, .broke hstage, rfl⟩
      · exact .inr ⟨_, _, .acted hstage, rfl⟩
    | nil =>
      cases point with
      | preparing =>
        dsimp only [World.goOn]
        split
        · exact .inr ⟨_, _, .unprepared hstage, rfl⟩
        · split
          · exact .inr ⟨_, _, .prepared hstage, rfl⟩
          · exact .inr ⟨_, _, .missing hstage, rfl⟩
      | reporting =>
        dsimp only [World.goOn]
        split
        · rename_i hrunning
          exact .inr ⟨_, _, .completed hstage hrunning, rfl⟩
        · rename_i hnot
          exact .inr ⟨_, _, .kept hstage hnot, rfl⟩
      | raised message => exact .inr ⟨_, _, .failed hstage, rfl⟩
      | finished => exact .inl rfl
      | entering | checking | loading | starting | splitting | crossing => exact .inr ⟨_, _, .went hstage rfl, rfl⟩

end Moved

/-! ### What a step leaves alone -/

section Frames

variable {sameConfig : Config → Config → Bool} {w w' : World} {b : Builder} {i : Input} {stage : Stage}

@[simp] theorem statusOf_setStage (n job : ℕ) : (w.setStage n stage).statusOf job = w.statusOf job := rfl

theorem builders_setStage (n m : ℕ) : (w.setStage n stage).builders[m]? =
    if n = m then w.builders[m]?.map fun b => { b with stage } else w.builders[m]? := by
  simp only [World.setStage, List.getElem?_modify, Option.map_eq_map]
  split
  · rfl
  · rw [Option.map_id']

theorem statusOf_report (job job' : ℕ) (status : Status) (message : String) (now : ℕ) :
    (w.report job status message now).statusOf job' =
      if job = job' then (w.statusOf job').map fun _ => status else w.statusOf job' := by
  simp only [World.statusOf, World.report, List.getElem?_modify, Option.map_eq_map]
  split
  · rw [Option.map_map, Option.map_map]
    rfl
  · rw [Option.map_id']

/-- A builder's move leaves the other builders, the flags and the dictionaries as they are. -/
structure Framed (w w' : World) : Prop where
  builders : w'.builders = w.builders
  stops : w'.stops = w.stops
  buildJobs : w'.buildJobs = w.buildJobs
  cancelFlags : w'.cancelFlags = w.cancelFlags
  length : w'.jobs.length = w.jobs.length

theorem Moved.framed (h : Moved sameConfig w b i w' stage) : Framed w w' := by
  cases h with
  | began | broke | unprepared | prepared | kept | went | acted => exact ⟨rfl, rfl, rfl, rfl, rfl⟩
  | missing | completed | failed => exact ⟨rfl, rfl, rfl, rfl, List.length_modify _ _ _⟩

theorem Moved.statusOf (h : Moved sameConfig w b i w' stage) {n m : ℕ} (hjob : ∀ job todo point, b.stage = .started job todo point → job = n)
    (hne : n ≠ m) : w'.statusOf m = w.statusOf m := by
  cases h with
  | began | broke | unprepared | prepared | kept | went | acted => rfl
  | missing hstage | completed hstage | failed hstage =>
    obtain rfl := hjob _ _ _ hstage
    rw [statusOf_report, if_neg hne]

end Frames

/-! ### The invariant -/

def Stage.finished : Stage → Bool
  | .started _ _ .finished => true
  | _ => false

/-- The `n`th builder, its flag and its job belong together. -/
structure Standing (w : World) (n : ℕ) (b : Builder) : Prop where
  stop : b.stop = n
  level : b.request.acceptsLevel = true
  job : ∀ job todo point, b.stage = .started job todo point → job = n
  ended : ∀ job todo, b.stage = .started job todo .finished → todo = []
  /-- A job that is running is its dataset's. -/
  current : w.statusOf n = some .running → w.buildJobs.lookup b.dataset = some n
  heeds : w.isSet n = true → b.stage.heeds = true ∧ w.statusOf n ≠ some .running
  running : w.isSet n = false → (w.statusOf n = some .running ↔ b.stage.finished = false)

structure Inv (w : World) : Prop where
  jobs : w.jobs.length = w.builders.length
  stops : w.stops.length = w.builders.length
  standing : ∀ n b, w.builders[n]? = some b → Standing w n b
  current : ∀ dataset n, w.buildJobs.lookup dataset = some n → ∃ b, w.builders[n]? = some b ∧ b.dataset = dataset
  flags : ∀ dataset, w.cancelFlags.lookup dataset = w.buildJobs.lookup dataset

section Invariant

variable {sameConfig : Config → Config → Bool} {w w' : World} {n m : ℕ} {b : Builder} {i : Input} {stage : Stage}

variable (h : Standing w n b)
include h

theorem Standing.congr (hstatus : w'.statusOf n = w.statusOf n) (hset : w'.isSet n = w.isSet n)
    (hcurrent : w.statusOf n = some .running → w'.buildJobs.lookup b.dataset = w.buildJobs.lookup b.dataset) : Standing w' n b where
  stop := h.stop
  level := h.level
  job := h.job
  ended := h.ended
  current := by
    intro hrunning
    rw [hstatus] at hrunning
    rw [hcurrent hrunning]
    exact h.current hrunning
  heeds := by
    rw [hset, hstatus]
    exact h.heeds
  running := by
    rw [hset, hstatus]
    exact h.running

theorem Standing.live (hheeds : b.stage.heeds = false) (hfinished : b.stage.finished = false) :
    w.isSet n = false ∧ w.statusOf n = some .running := by
  have hset : w.isSet n = false := by
    cases hset : w.isSet n with
    | false => rfl
    | true => rw [(h.heeds hset).1] at hheeds; cases hheeds
  exact ⟨hset, (h.running hset).mpr hfinished⟩

omit h in
theorem Framed.isSet (h : Framed w w') (stop : ℕ) : w'.isSet stop = w.isSet stop := by
  unfold World.isSet
  rw [h.stops]

theorem Standing.goesOn (hframed : Framed w w') (hclear : w.isSet n = false)
    (hrunning : w.statusOf n = some .running) (hstatus : w'.statusOf n = w.statusOf n) {todo : List Act} {point : Point}
    (hpoint : point ≠ .finished) : Standing w' n { b with stage := .started n todo point } where
  stop := h.stop
  level := h.level
  job := by
    intro job todo' point' hstage
    cases hstage
    rfl
  ended := by
    intro job todo' hstage
    cases hstage
    exact absurd rfl hpoint
  current := by
    intro _
    rw [hframed.buildJobs]
    exact h.current hrunning
  heeds := by
    intro hset
    rw [hframed.isSet, hclear] at hset
    cases hset
  running := by
    intro _
    rw [hstatus, hrunning]
    cases point with
    | finished => exact absurd rfl hpoint
    | _ => exact ⟨fun _ => rfl, fun _ => rfl⟩

theorem Standing.heedsOn (hset : w.isSet n = true) {point : Point} (hheeds : point.heeds = true) :
    Standing w n { b with stage := .started n [] point } where
  stop := h.stop
  level := h.level
  job := by
    intro job todo' point' hstage
    cases hstage
    rfl
  ended := by
    intro job todo' hstage
    cases hstage
    rfl
  current := fun hrunning => absurd hrunning (h.heeds hset).2
  heeds := fun _ => ⟨hheeds, (h.heeds hset).2⟩
  running := by
    intro hclear
    rw [hset] at hclear
    cases hclear

theorem Standing.ends (hstatus : w'.statusOf n ≠ some .running) :
    Standing w' n { b with stage := .started n [] .finished } where
  stop := h.stop
  level := h.level
  job := by
    intro job todo' point' hstage
    cases hstage
    rfl
  ended := by
    intro job todo' hstage
    cases hstage
    rfl
  current := fun hrunning => absurd hrunning hstatus
  heeds := fun _ => ⟨rfl, hstatus⟩
  running := fun _ => ⟨fun hrunning => absurd hrunning hstatus, nofun⟩

omit h in
theorem statusOf_report_ne {status : Status} (hne : status ≠ .running) (message : String) (now : ℕ) :
    (w.report n status message now).statusOf n ≠ some .running := by
  rw [statusOf_report, if_pos rfl]
  cases w.statusOf n with
  | none => exact nofun
  | some _ => exact fun h => hne (Option.some.inj h)

theorem Standing.moved (hmoved : Moved sameConfig w b i w' stage)
    (hloads : w.isSet b.stop = true → b.loads i = true) : Standing w' n { b with stage } := by
  have hframed := hmoved.framed
  cases hmoved with
  | began hstage hjob =>
    obtain ⟨hclear, hrunning⟩ := h.live (by rw [hstage]; rfl) (by rw [hstage]; rfl)
    rw [h.current hrunning] at hjob
    obtain rfl := Option.some.inj hjob
    rw [h.level]
    exact h.goesOn hframed hclear hrunning rfl nofun
  | @acted job a todo point hstage | @broke job a todo point hstage =>
    have hfinished : point ≠ .finished := by
      rintro rfl
      exact nomatch h.ended _ _ hstage
    obtain ⟨hclear, hrunning⟩ := h.live (by rw [hstage]; rfl) (by rw [hstage]; cases point <;> first | rfl | exact absurd rfl hfinished)
    obtain rfl := h.job _ _ _ hstage
    exact h.goesOn hframed hclear hrunning rfl (by first | exact hfinished | nofun)
  | unprepared hstage | prepared hstage =>
    obtain ⟨hclear, hrunning⟩ := h.live (by rw [hstage]; rfl) (by rw [hstage]; rfl)
    obtain rfl := h.job _ _ _ hstage
    exact h.goesOn hframed hclear hrunning rfl nofun
  | missing hstage | completed hstage | failed hstage =>
    obtain rfl := h.job _ _ _ hstage
    exact h.ends (statusOf_report_ne (by decide) _ _)
  | kept hstage hnot =>
    obtain rfl := h.job _ _ _ hstage
    exact h.ends hnot
  | @went job point hstage hgoing =>
    obtain rfl := h.job _ _ _ hstage
    have hstop : w.isSet b.stop = w.isSet job := by rw [h.stop]
    rw [hstop]
    cases hset : w.isSet job with
    | true =>
      have hheeds := (h.heeds hset).1
      rw [hstage] at hheeds
      obtain ⟨htodo, hnext⟩ := next_heeds sameConfig b.request (w.directories b.dataset) i hheeds hgoing
        fun loaded hpoint => by
          subst hpoint
          have hload := hloads (hstop.trans hset)
          simp only [Builder.loads, hstage] at hload
          exact hload
      rw [htodo]
      exact h.heedsOn hset hnext
    | false =>
      have hfinished : b.stage.finished = false := by
        rw [hstage]
        cases point with
        | finished => cases hgoing
        | _ => rfl
      refine h.goesOn hframed hset ((h.running hset).mpr hfinished) rfl fun hnext => ?_
      exact nomatch (next_finished _ _ _ _ hgoing hnext).1

omit h

theorem Inv.build (h : Inv w) (htimely : Timely w (.build n i)) : Inv (w.build sameConfig n i) := by
  cases hb : w.builders[n]? with
  | none =>
    have hsame : w.build sameConfig n i = w := by simp only [World.build, hb]
    rw [hsame]
    exact h
  | some b =>
    rcases build_cases sameConfig i hb with hsame | ⟨w', stage, hmoved, heq⟩
    · rw [hsame]
      exact h
    have hframed := hmoved.framed
    have hstanding := h.standing n b hb
    rw [heq]
    refine ⟨?_, ?_, ?_, ?_, ?_⟩
    · rw [World.setStage, List.length_modify, hframed.builders]
      exact hframed.length.trans h.jobs
    · rw [World.setStage, List.length_modify, hframed.builders, hframed.stops]
      exact h.stops
    · intro m b' hb'
      rw [builders_setStage, hframed.builders] at hb'
      split at hb'
      · rename_i hnm
        subst hnm
        rw [hb] at hb'
        obtain rfl := Option.some.inj hb'
        exact (hstanding.moved hmoved (htimely b (by rw [hb]; rfl))).congr rfl rfl fun _ => rfl
      · rename_i hnm
        refine (h.standing m b' hb').congr (hmoved.statusOf hstanding.job hnm) (hframed.isSet m) fun _ => ?_
        exact congrArg (fun jobs : Dict String ℕ => jobs.lookup b'.dataset) hframed.buildJobs
    · intro dataset m hm
      have hm' : w.buildJobs.lookup dataset = some m := by
        rw [← hframed.buildJobs]
        exact hm
      obtain ⟨b', hb', hdataset⟩ := h.current dataset m hm'
      rw [builders_setStage, hframed.builders, hb']
      split
      · exact ⟨_, rfl, hdataset⟩
      · exact ⟨_, rfl, hdataset⟩
    · intro dataset
      have hflags := h.flags dataset
      rw [← hframed.buildJobs, ← hframed.cancelFlags] at hflags
      exact hflags

variable {dataset : String} {now : ℕ}

theorem Inv.trigger {req : Request} (h : Inv w) (htimely : Timely w (.trigger dataset req now))
    (hw' : w.triggerBuild dataset req now = .ok w') : Inv w' := by
  unfold World.triggerBuild at hw'
  split at hw'
  · cases hw'
  rename_i hidle
  cases hw'
  have hjobs := h.jobs
  have hstops := h.stops
  have hold : ∀ m, m < w.builders.length → ∀ job : Job, (w.jobs ++ [job])[m]? = w.jobs[m]? := fun m hm job =>
    List.getElem?_append_left (hjobs ▸ hm)
  have hflag : ∀ m, m < w.builders.length → (w.stops ++ [false])[m]? = w.stops[m]? := fun m hm =>
    List.getElem?_append_left (hstops ▸ hm)
  refine ⟨?_, ?_, ?_, ?_, ?_⟩
  · simp [hjobs]
  · simp [hstops]
  · intro m b hb
    rcases Nat.lt_or_ge m w.builders.length with hm | hm
    · rw [List.getElem?_append_left hm] at hb
      refine (h.standing m b hb).congr ?_ ?_ ?_
      · simp only [World.statusOf, hold m hm]
      · simp only [World.isSet, hflag m hm]
      · -- The job that was running would be this dataset's.
        intro hrunning
        have hcurrent := (h.standing m b hb).current hrunning
        refine Dict.lookup_set_of_ne ?_
        rintro rfl
        refine hidle ?_
        simp only [World.status, hcurrent]
        exact hrunning
    · obtain rfl : m = w.builders.length := by
        have hlt := (List.getElem?_eq_some_iff.mp hb).1
        rw [List.length_append] at hlt
        exact Nat.le_antisymm (Nat.le_of_lt_succ hlt) hm
      rw [List.getElem?_append_right (Nat.le_refl _), Nat.sub_self] at hb
      obtain rfl := Option.some.inj hb
      have hclear : (w.stops ++ [false])[w.builders.length]? = some false := by
        rw [← hstops, List.getElem?_append_right (Nat.le_refl _), Nat.sub_self]
        rfl
      have hrunning : ∀ job : Job, (w.jobs ++ [job])[w.builders.length]? = some job := by
        intro job
        rw [← hjobs, List.getElem?_append_right (Nat.le_refl _), Nat.sub_self]
        rfl
      constructor
      · exact hstops
      · exact htimely hidle
      · rintro _ _ _ ⟨⟩
      · rintro _ _ ⟨⟩
      · intro _
        rw [← hjobs]
        exact Dict.lookup_set_self w.buildJobs dataset w.jobs.length
      · intro hset
        simp only [World.isSet, hclear] at hset
        cases hset
      · intro _
        simp only [World.statusOf, hrunning]
        exact ⟨fun _ => rfl, fun _ => rfl⟩
  · intro dataset' m hm
    dsimp only at hm ⊢
    rw [Dict.lookup_set] at hm
    split at hm
    · rename_i hsame
      obtain rfl := Option.some.inj hm
      refine ⟨{ dataset, request := req, stop := w.stops.length }, ?_, hsame⟩
      rw [hjobs, List.getElem?_append_right (Nat.le_refl _), Nat.sub_self]
      rfl
    · obtain ⟨b, hb, hdataset⟩ := h.current dataset' m hm
      refine ⟨b, ?_, hdataset⟩
      rw [List.getElem?_append_left (List.getElem?_eq_some_iff.mp hb).1]
      exact hb
  · intro dataset'
    dsimp only
    rw [Dict.lookup_set, Dict.lookup_set, h.flags dataset', hjobs, hstops]

theorem cancel_cases (hflags : ∀ dataset', w.buildJobs.lookup dataset' = w.cancelFlags.lookup dataset')
    (hw' : w.cancelBuild dataset now = .ok w') : ∃ job, w.buildJobs.lookup dataset = some job ∧ w.statusOf job = some .running ∧
      w' = World.report { w with stops := w.stops.set job true } job .cancelled "Build cancelled" now := by
  unfold World.cancelBuild at hw'
  split at hw'
  · cases hw'
  rename_i job hjob
  split at hw'
  · cases hw'
  rename_i hrunning
  rw [hflags] at hjob
  rw [hjob] at hw'
  cases hw'
  exact ⟨job, (hflags dataset).trans hjob, not_not.mp hrunning, rfl⟩

theorem Inv.cancel (h : Inv w) (htimely : Timely w (.cancel dataset now))
    (hw' : w.cancelBuild dataset now = .ok w') : Inv w' := by
  obtain ⟨job, hjob, hrunning, rfl⟩ := cancel_cases (fun dataset' => (h.flags dataset').symm) hw'
  have hflag : w.cancelFlags.lookup dataset = some job := (h.flags dataset).trans hjob
  have hheeds : ∀ b ∈ w.builders, b.stop = job → b.stage.heeds = true := by
    intro b hb hstop
    refine htimely ?_ b hb (by rw [hstop]; exact hflag)
    simp only [World.status, hjob]
    exact hrunning
  refine ⟨?_, ?_, ?_, ?_, ?_⟩
  · exact (List.length_modify _ _ _).trans h.jobs
  · exact List.length_set.trans h.stops
  · intro m b hb
    have hm := (List.getElem?_eq_some_iff.mp hb).1
    by_cases hne : job = m
    · subst hne
      have hstanding := h.standing job b hb
      have hnot : (World.report { w with stops := w.stops.set job true } job .cancelled "Build cancelled" now).statusOf job ≠
          some .running := statusOf_report_ne (by decide) _ _
      refine ⟨hstanding.stop, hstanding.level, hstanding.job, hstanding.ended, fun h => absurd h hnot, fun _ => ⟨?_, hnot⟩, ?_⟩
      · exact hheeds b (List.mem_of_getElem? hb) hstanding.stop
      · intro hclear
        have hset : (w.stops.set job true)[job]? = some true := List.getElem?_set_self (by rw [h.stops]; exact hm)
        simp only [World.isSet, World.report, hset] at hclear
        cases hclear
    · refine (h.standing m b hb).congr ?_ ?_ fun _ => rfl
      · rw [statusOf_report, if_neg hne]
        rfl
      · simp only [World.isSet, World.report, List.getElem?_set_ne hne]
  · exact h.current
  · exact h.flags

theorem Inv.step (h : Inv w) {ev : Event} (htimely : Timely w ev) : Inv (step sameConfig w ev) := by
  cases ev with
  | trigger dataset req now =>
    simp only [BuildJobs.step]
    cases hw' : w.triggerBuild dataset req now with
    | error _ => exact h
    | ok w' => exact h.trigger htimely hw'
  | cancel dataset now =>
    simp only [BuildJobs.step]
    cases hw' : w.cancelBuild dataset now with
    | error _ => exact h
    | ok w' => exact h.cancel htimely hw'
  | build n i => exact h.build htimely

theorem inv_start (directories : String → Directory) : Inv { directories } where
  jobs := rfl
  stops := rfl
  standing := by
    intro n b hb
    exact nomatch (List.getElem?_nil (α := Builder) (i := n)).symm.trans hb
  current := by
    intro dataset n hn
    exact nomatch (Dict.lookup_empty (ν := ℕ) dataset).symm.trans hn
  flags := fun _ => rfl

end Invariant

/-! ### Builders that are spent -/

section Spent

variable {sameConfig : Config → Config → Bool} {w w' : World} {n : ℕ} {ev : Event}

/-- The builder has ended, or its flag is set where it does not write any more. -/
def World.Spent (w : World) (n : ℕ) : Prop :=
  ∃ b job point, w.builders[n]? = some b ∧ b.stage = .started job [] point ∧ point.quiet = true ∧
    (w.isSet b.stop = true ∨ point = .finished)

theorem World.Spent.congr (h : w.Spent n) (hbuilder : ∀ b, w.builders[n]? = some b → w'.builders[n]? = some b)
    (hset : ∀ stop, w.isSet stop = true → w'.isSet stop = true) : w'.Spent n := by
  obtain ⟨b, job, point, hb, hstage, hquiet, hwhy⟩ := h
  exact ⟨b, job, point, hbuilder b hb, hstage, hquiet, hwhy.imp_left (hset b.stop)⟩

theorem World.Spent.trigger {dataset : String} {req : Request} {now : ℕ} (h : w.Spent n)
    (hw' : w.triggerBuild dataset req now = .ok w') : w'.Spent n := by
  unfold World.triggerBuild at hw'
  split at hw'
  · cases hw'
  cases hw'
  refine h.congr ?_ ?_
  · intro b hb
    exact (List.getElem?_append_left (List.getElem?_eq_some_iff.mp hb).1).trans hb
  · intro stop hset
    have hstop : w.stops[stop]? = some true := of_decide_eq_true hset
    exact decide_eq_true ((List.getElem?_append_left (List.getElem?_eq_some_iff.mp hstop).1).trans hstop)

theorem World.Spent.cancel {dataset : String} {now : ℕ} (h : w.Spent n) (hw' : w.cancelBuild dataset now = .ok w') : w'.Spent n := by
  unfold World.cancelBuild at hw'
  split at hw'
  · cases hw'
  split at hw'
  · cases hw'
  cases hw'
  split
  · exact h.congr (fun _ hb => hb) fun _ hset => hset
  · rename_i flag _
    refine h.congr (fun _ hb => hb) ?_
    intro stop hset
    have hstop : w.stops[stop]? = some true := of_decide_eq_true hset
    refine decide_eq_true (?_ : (w.stops.set flag true)[stop]? = some true)
    rw [List.getElem?_set]
    split
    · rename_i hsame
      rw [if_pos (hsame ▸ (List.getElem?_eq_some_iff.mp hstop).1)]
    · exact hstop

theorem World.Spent.build {m : ℕ} {i : Input} (h : w.Spent n) : (w.build sameConfig m i).Spent n := by
  cases hb : w.builders[m]? with
  | none =>
    have hsame : w.build sameConfig m i = w := by simp only [World.build, hb]
    rw [hsame]
    exact h
  | some b =>
    rcases build_cases sameConfig i hb with hsame | ⟨w', stage, hmoved, heq⟩
    · rw [hsame]
      exact h
    rw [heq]
    have hframed := hmoved.framed
    by_cases hmn : m = n
    · subst hmn
      obtain ⟨b', job, point, hb', hstage, hquiet, hwhy⟩ := h
      rw [hb] at hb'
      obtain rfl := Option.some.inj hb'
      have hbuilder : ∀ stage', (w'.setStage m stage').builders[m]? = some { b with stage := stage' } := by
        intro stage'
        rw [builders_setStage, if_pos rfl, hframed.builders, hb]
        rfl
      cases hmoved with
      | began hstage' | acted hstage' | broke hstage' => rw [hstage] at hstage'; cases hstage'
      | unprepared hstage' | prepared hstage' | missing hstage' =>
        rw [hstage] at hstage'
        cases hstage'
        cases hquiet
      | completed hstage' | kept hstage' | failed hstage' => exact ⟨_, _, _, hbuilder _, rfl, rfl, .inr rfl⟩
      | went hstage' hgoing =>
        rw [hstage] at hstage'
        cases hstage'
        rcases hwhy with hset | rfl
        · rw [hset]
          obtain ⟨htodo, hnext⟩ := next_quiet sameConfig b.request (w.directories b.dataset) i hquiet hgoing
          rw [htodo]
          exact ⟨_, _, _, hbuilder _, rfl, hnext, .inl hset⟩
        · cases hgoing
    · refine h.congr ?_ ?_
      · intro b' hb'
        rw [builders_setStage, if_neg hmn, hframed.builders]
        exact hb'
      · intro stop hset
        exact (hframed.isSet stop).trans hset

theorem World.Spent.step (h : w.Spent n) : (step sameConfig w ev).Spent n := by
  cases ev with
  | trigger dataset req now =>
    simp only [BuildJobs.step]
    cases hw' : w.triggerBuild dataset req now with
    | error _ => exact h
    | ok w' => exact h.trigger hw'
  | cancel dataset now =>
    simp only [BuildJobs.step]
    cases hw' : w.cancelBuild dataset now with
    | error _ => exact h
    | ok w' => exact h.cancel hw'
  | build m i => exact h.build

theorem World.Spent.not_able (h : w.Spent n) : ¬ w.Able sameConfig n := by
  rintro ⟨evs, b, hb, hwrites⟩
  have hspent : (run (BuildJobs.step sameConfig) w evs).Spent n := by
    clear hb
    induction evs generalizing w with
    | nil => exact h
    | cons ev evs ih => exact ih h.step
  obtain ⟨b', job, point, hb', hstage, -⟩ := hspent
  obtain rfl := Option.mem_unique hb hb'
  rw [hstage] at hwrites
  cases hwrites

end Spent

/-! ### The law -/

section Law

variable {sameConfig : Config → Config → Bool} {w : World}

theorem World.Writes.able {n : ℕ} (h : w.Writes n) : w.Able sameConfig n := ⟨[], h⟩

theorem Inv.live_of_able (h : Inv w) {n : ℕ} {b : Builder} (hb : w.builders[n]? = some b) (hable : w.Able sameConfig n) :
    w.isSet n = false ∧ w.statusOf n = some .running := by
  have hstanding := h.standing n b hb
  have hspent : ¬ w.Spent n := fun hspent => hspent.not_able hable
  have hclear : w.isSet n = false := by
    cases hset : w.isSet n with
    | false => rfl
    | true =>
      have hheeds := (hstanding.heeds hset).1
      have hstop : w.isSet b.stop = true := by rw [hstanding.stop, hset]
      cases hstage : b.stage with
      | queued => rw [hstage] at hheeds; cases hheeds
      | started job todo point =>
        rw [hstage] at hheeds
        cases todo with
        | cons a todo => cases hheeds
        | nil => exact absurd ⟨b, job, point, hb, hstage, Point.quiet_of_heeds hheeds, .inl hstop⟩ hspent
  refine ⟨hclear, (hstanding.running hclear).mpr ?_⟩
  cases hstage : b.stage with
  | queued => rfl
  | started job todo point =>
    cases point with
    | finished =>
      rw [hstanding.ended job todo hstage] at hstage
      exact absurd ⟨b, job, .finished, hb, hstage, rfl, .inr rfl⟩ hspent
    | _ => rfl

theorem Inv.oneBuilder (h : Inv w) : OneBuilder sameConfig w where
  alone := by
    -- Both jobs are the one that the dataset has.
    intro m n b b' hb hb' hdataset hm hn
    have hlookup := (h.standing m b hb).current (h.live_of_able hb hm).2
    have hlookup' := (h.standing n b' hb').current (h.live_of_able hb' hn).2
    rw [hdataset, hlookup'] at hlookup
    exact (Option.some.inj hlookup).symm
  heeded := by
    rintro n ⟨b, hb, hset⟩ hable
    rw [(h.standing n b hb).stop, (h.live_of_able hb hable).1] at hset
    cases hset
  ended := by
    intro n b job hb hstage
    have hstanding := h.standing n b hb
    obtain rfl := hstanding.job job [] .finished hstage
    cases hset : w.isSet job with
    | true => exact (hstanding.heeds hset).2
    | false =>
      intro hrunning
      have hfinished := (hstanding.running hset).mp hrunning
      rw [hstage] at hfinished
      cases hfinished

theorem Inv.settled (h : Inv w) (ev : Event) : Settled w (BuildJobs.step sameConfig w ev) := by
  intro job status hstatus hnot
  have hreport : ∀ (n : ℕ) (w' : World), w'.jobs = w.jobs → w.statusOf n = some .running → ∀ status' message now,
      (w'.report n status' message now).statusOf job = some status := by
    intro n w' hjobs hrunning status' message now
    have hsame : w'.statusOf job = w.statusOf job := congrArg (fun jobs : List Job => jobs[job]?.map Job.status) hjobs
    rw [statusOf_report, if_neg, hsame, hstatus]
    rintro rfl
    rw [hrunning] at hstatus
    exact hnot (Option.some.inj hstatus).symm
  cases ev with
  | trigger dataset req now =>
    simp only [BuildJobs.step]
    cases hw' : w.triggerBuild dataset req now with
    | error _ => exact hstatus
    | ok w' =>
      unfold World.triggerBuild at hw'
      split at hw'
      · cases hw'
      cases hw'
      obtain ⟨j, hj, -⟩ := Option.map_eq_some_iff.mp hstatus
      have hlt := (List.getElem?_eq_some_iff.mp hj).1
      simp only [World.statusOf] at hstatus ⊢
      exact (congrArg (Option.map Job.status) (List.getElem?_append_left hlt)).trans hstatus
  | cancel dataset now =>
    simp only [BuildJobs.step]
    cases hw' : w.cancelBuild dataset now with
    | error _ => exact hstatus
    | ok w' =>
      obtain ⟨n, -, hrunning, rfl⟩ := cancel_cases (fun dataset' => (h.flags dataset').symm) hw'
      exact hreport n _ rfl hrunning _ _ _
  | build n i =>
    simp only [BuildJobs.step]
    cases hb : w.builders[n]? with
    | none =>
      simp only [World.build, hb]
      exact hstatus
    | some b =>
      rcases build_cases sameConfig i hb with hsame | ⟨w', stage, hmoved, heq⟩
      · rw [hsame]
        exact hstatus
      have hstanding := h.standing n b hb
      rw [heq, statusOf_setStage]
      cases hmoved with
      | began | broke | unprepared | prepared | kept | went | acted => exact hstatus
      | completed hstage hrunning => exact hreport _ w rfl hrunning _ _ _
      | missing hstage | failed hstage =>
        obtain rfl := hstanding.job _ _ _ hstage
        exact hreport _ w rfl (hstanding.live (by rw [hstage]; rfl) (by rw [hstage]; rfl)).2 _ _ _

end Law

/-- In every run whose steps are timely, one builder at most is able to write for a dataset, none after its
cancellation, and each job leaves `running` once. -/
theorem oneBuilder_of_timely (sameConfig : Config → Config → Bool) (directories : String → Directory) (evs : List Event)
    (htimely : Along (step sameConfig) Timely { directories } evs) :
    OneBuilder sameConfig (run (step sameConfig) { directories } evs) ∧
      ∀ ev, Settled (run (step sameConfig) { directories } evs) (step sameConfig (run (step sameConfig) { directories } evs) ev) := by
  have hinv : Inv (run (step sameConfig) { directories } evs) :=
    htimely.invariant (inv_start directories) fun _ _ h htimely => h.step htimely
  exact ⟨hinv.oneBuilder, hinv.settled⟩

/-! A dataset without services, and a model that is never asked. -/

def sampleInput : Input where
  llm :=
    { extract := fun _ _ => ∅, designFromKeywords := fun _ _ _ => none, designFromDescriptions := fun _ _ => none
      validate := fun _ _ => [], redesign := fun _ _ _ _ => none, classify := fun _ _ _ _ _ => none
      refine := fun _ _ _ _ _ => none, identify := fun _ _ _ _ => [], place := fun _ _ _ => none }

def sampleRequest : Request := { cfg := { genericLimit := fun n => n } }

/-- Up to the check of phase 1. -/
def sampleBeginning : List Event := Event.trigger "demo" sampleRequest 0 :: List.replicate 8 (Event.build 0 sampleInput)

/-- A build is cancelled before that check and another one is started; the first ends, and the second goes on. -/
theorem oneBuilder_sample :
    Along (step fun _ _ => true) Timely { directories := fun _ => {} } (sampleBeginning ++
      [Event.cancel "demo" 9, Event.trigger "demo" sampleRequest 10, Event.build 0 sampleInput, Event.build 1 sampleInput]) ∧
    OneBuilder (fun _ _ => true) (run (step fun _ _ => true) { directories := fun _ => {} } (sampleBeginning ++
      [Event.cancel "demo" 9, Event.trigger "demo" sampleRequest 10, Event.build 0 sampleInput, Event.build 1 sampleInput])) :=
  have htimely : Along (step fun _ _ => true) Timely { directories := fun _ => {} } (sampleBeginning ++
      [Event.cancel "demo" 9, Event.trigger "demo" sampleRequest 10, Event.build 0 sampleInput, Event.build 1 sampleInput]) := by decide
  ⟨htimely, (oneBuilder_of_timely _ _ _ htimely).1⟩

/-- A build is cancelled when it is about to save and another one is started. -/
def sampleRestart : List Event :=
  sampleBeginning ++ List.replicate 3 (Event.build 0 sampleInput) ++ [Event.cancel "demo" 9, Event.trigger "demo" sampleRequest 10]

/-- The first builder is about to write though it was cancelled. If that write fails, the first job's status
changes once more. -/
theorem restart_writes :
    ¬ OneBuilder (fun _ _ => true) (run (step fun _ _ => true) { directories := fun _ => {} } sampleRestart) ∧
    ¬ Settled
      (run (step fun _ _ => true) { directories := fun _ => {} } (sampleRestart ++ [Event.build 0 { sampleInput with raises := true }]))
      (run (step fun _ _ => true) { directories := fun _ => {} }
        (sampleRestart ++ [Event.build 0 { sampleInput with raises := true }, Event.build 0 sampleInput])) := by
  constructor
  · intro h
    have hcancelled : (run (step fun _ _ => true) { directories := fun _ => {} } sampleRestart).Cancelled 0 := by decide
    have hwrites : (run (step fun _ _ => true) { directories := fun _ => {} } sampleRestart).Writes 0 := by decide
    exact h.heeded 0 hcancelled hwrites.able
  · intro h
    have hbefore : (run (step fun _ _ => true) { directories := fun _ => {} }
        (sampleRestart ++ [Event.build 0 { sampleInput with raises := true }])).statusOf 0 = some .cancelled := by decide +kernel
    have hafter : (run (step fun _ _ => true) { directories := fun _ => {} }
        (sampleRestart ++ [Event.build 0 { sampleInput with raises := true }, Event.build 0 sampleInput])).statusOf 0 = some .error := by
      decide +kernel
    rw [h 0 .cancelled hbefore nofun] at hafter
    cases hafter

end AgentProtocol.A2X.BuildJobs
