-- SUMMARY: Deployments and LocalRouterState: the maps of the router about its deployments, and the operations on them.
import AgentProtocol.Lib.Table

/-!
# The state of the router

`LocalRouterState` keeps a number of dictionaries keyed by the id of a deployment. An operation under its lock is one
function here. The time is passed to those that read the clock; times and durations are taken from an ordered field.

`Entries` is what the dictionaries say about one deployment. Every operation is described by what it does to the
entries of the deployments it is about, and by leaving those of all others alone.
-/

namespace AgentProtocol.Router

open Lib

inductive DeploymentStatus where
  | healthy
  | cooldown
  deriving DecidableEq

/-- The fields of a deployment that routing looks at, with the keys of its `request_defaults`. -/
structure Deployment (T : Type) where
  id : String
  modelName : String
  provider : String := ""
  status : DeploymentStatus := .healthy
  cooldownUntil : Option T := none
  tpm : Option ℕ := none
  rpm : Option ℕ := none
  requestDefaults : List String := []

structure LatencyRecord (T : Type) where
  latency : T
  tokens : ℤ
  normalized : T
  timestamp : T

structure TokenUsage where
  used : ℤ := 0
  limit : ℕ := 0

structure RPMTracker (T : Type) where
  rpmLimit : ℕ := 0
  requests : List T := []

structure LocalRouterState (T : Type) where
  deploymentStatus : Dict String DeploymentStatus := ∅
  consecutiveFailures : Dict String ℕ := ∅
  cooldownUntil : Dict String (Option T) := ∅
  latencies : Dict String (List (LatencyRecord T)) := ∅
  totalTokens : Dict String ℤ := ∅
  totalRequests : Dict String ℕ := ∅
  healthState : Dict String Bool := ∅
  tokenUsage : Dict String TokenUsage := ∅
  rpmTracker : Dict String (RPMTracker T) := ∅
  sessionDeploymentMap : Dict String String := ∅
  sessionTimestamps : Dict String T := ∅

def maxLatencyHistory : ℕ := 10

def modelWildcard : String := "*"

namespace LocalRouterState

variable {T : Type}

def resetDeployment (s : LocalRouterState T) (deploymentId : String) : LocalRouterState T :=
  { s with
    deploymentStatus := s.deploymentStatus.set deploymentId .healthy
    cooldownUntil := s.cooldownUntil.set deploymentId none
    healthState := s.healthState.set deploymentId true }

def updateHealth (s : LocalRouterState T) (deploymentId : String) (isHealthy : Bool) : LocalRouterState T :=
  let s := { s with healthState := s.healthState.set deploymentId isHealthy }
  if isHealthy then
    { s with
      deploymentStatus := s.deploymentStatus.set deploymentId .healthy
      cooldownUntil := s.cooldownUntil.set deploymentId none }
  else s

/-- `deployment_id in self.deployment_status or deployment_id in self.latencies`, and the state without it. -/
def removeDeployment (s : LocalRouterState T) (deploymentId : String) : LocalRouterState T × Bool :=
  ({ deploymentStatus := s.deploymentStatus.erase deploymentId
     consecutiveFailures := s.consecutiveFailures.erase deploymentId
     cooldownUntil := s.cooldownUntil.erase deploymentId
     latencies := s.latencies.erase deploymentId
     totalTokens := s.totalTokens.erase deploymentId
     totalRequests := s.totalRequests.erase deploymentId
     healthState := s.healthState.erase deploymentId
     tokenUsage := s.tokenUsage.erase deploymentId
     rpmTracker := s.rpmTracker.erase deploymentId
     sessionDeploymentMap := s.sessionDeploymentMap.filter fun entry => entry.2 ≠ deploymentId
     sessionTimestamps := s.sessionTimestamps.filter fun entry => s.sessionDeploymentMap.lookup entry.1 ≠ some deploymentId },
   s.deploymentStatus.contains deploymentId || s.latencies.contains deploymentId)

/-- What is known about one deployment. -/
structure Entries (T : Type) where
  status : Option DeploymentStatus
  failures : Option ℕ
  cooldownUntil : Option (Option T)
  latencies : Option (List (LatencyRecord T))
  totalTokens : Option ℤ
  totalRequests : Option ℕ
  health : Option Bool
  tokenUsage : Option TokenUsage
  rpmTracker : Option (RPMTracker T)

def entries (s : LocalRouterState T) (deploymentId : String) : Entries T where
  status := s.deploymentStatus.lookup deploymentId
  failures := s.consecutiveFailures.lookup deploymentId
  cooldownUntil := s.cooldownUntil.lookup deploymentId
  latencies := s.latencies.lookup deploymentId
  totalTokens := s.totalTokens.lookup deploymentId
  totalRequests := s.totalRequests.lookup deploymentId
  health := s.healthState.lookup deploymentId
  tokenUsage := s.tokenUsage.lookup deploymentId
  rpmTracker := s.rpmTracker.lookup deploymentId

variable (s : LocalRouterState T) (deploymentId id : String)

theorem entries_resetDeployment : (s.resetDeployment deploymentId).entries id =
      if deploymentId = id then
        { s.entries id with status := some .healthy, cooldownUntil := some none, health := some true }
      else s.entries id := by
  by_cases h : deploymentId = id
  · simp [entries, resetDeployment, h]
  · simp [entries, resetDeployment, Dict.lookup_set, h]

theorem entries_updateHealth (isHealthy : Bool) : (s.updateHealth deploymentId isHealthy).entries id =
      if deploymentId = id then
        if isHealthy then { s.entries id with status := some .healthy, cooldownUntil := some none, health := some true }
        else { s.entries id with health := some false }
      else s.entries id := by
  by_cases h : deploymentId = id
  · cases isHealthy <;> simp [entries, updateHealth, h]
  · cases isHealthy <;> simp [entries, updateHealth, Dict.lookup_set, h]

theorem entries_removeDeployment : (s.removeDeployment deploymentId).1.entries id =
      if deploymentId = id then ({} : LocalRouterState T).entries id else s.entries id := by
  by_cases h : deploymentId = id
  · simp [entries, removeDeployment, Dict.lookup_erase, h]
  · simp [entries, removeDeployment, Dict.lookup_erase, Ne.symm h, h]

/-! ## What the router reports about a call -/

variable [Field T] [LinearOrder T]

def addRequest (tracker : RPMTracker T) (now : T) : RPMTracker T :=
  { tracker with requests := (tracker.requests ++ [now]).filter fun timestamp => now - timestamp < 60 }

def onSuccess (s : LocalRouterState T) (now : T) (deploymentId : String) (latency : T) (tokens : ℤ) : LocalRouterState T :=
  let record : LatencyRecord T :=
    { latency := latency, tokens := tokens, normalized := latency / ((max tokens 1 : ℤ) : T), timestamp := now }
  let records := (s.latencies.lookup deploymentId).getD [] ++ [record]
  { s with
    consecutiveFailures := s.consecutiveFailures.set deploymentId 0
    deploymentStatus := s.deploymentStatus.set deploymentId .healthy
    cooldownUntil := s.cooldownUntil.set deploymentId none
    latencies := s.latencies.set deploymentId (if maxLatencyHistory < records.length then records.tail else records)
    totalTokens := s.totalTokens.set deploymentId ((s.totalTokens.lookup deploymentId).getD 0 + tokens)
    totalRequests := s.totalRequests.set deploymentId ((s.totalRequests.lookup deploymentId).getD 0 + 1)
    healthState := s.healthState.set deploymentId true
    tokenUsage := match s.tokenUsage.lookup deploymentId with
      | some usage => s.tokenUsage.set deploymentId { usage with used := usage.used + tokens }
      | none => s.tokenUsage
    rpmTracker := match s.rpmTracker.lookup deploymentId with
      | some tracker => s.rpmTracker.set deploymentId (addRequest tracker now)
      | none => s.rpmTracker }

def onFailure (s : LocalRouterState T) (now : T) (deploymentId : String) (cooldownTime : T) : LocalRouterState T :=
  let failures := (s.consecutiveFailures.lookup deploymentId).getD 0 + 1
  { s with
    consecutiveFailures := s.consecutiveFailures.set deploymentId failures
    deploymentStatus := s.deploymentStatus.set deploymentId .cooldown
    cooldownUntil := s.cooldownUntil.set deploymentId (some (now + cooldownTime * failures))
    healthState := s.healthState.set deploymentId false }

/-- The failures of a deployment since its last success, as `consecutive_failures.get(deployment_id, 0)`. -/
def failures (s : LocalRouterState T) (deploymentId : String) : ℕ := (s.consecutiveFailures.lookup deploymentId).getD 0

def syncQuota (s : LocalRouterState T) (dep : Deployment T) : LocalRouterState T :=
  { s with
    tokenUsage := match dep.tpm, s.tokenUsage.lookup dep.id with
      | some tpm, none => s.tokenUsage.set dep.id { limit := tpm }
      | some tpm, some usage => if usage.limit = tpm then s.tokenUsage else s.tokenUsage.set dep.id { usage with limit := tpm }
      | none, _ => s.tokenUsage.erase dep.id
    rpmTracker := match dep.rpm, s.rpmTracker.lookup dep.id with
      | some rpm, none => s.rpmTracker.set dep.id { rpmLimit := rpm }
      | some rpm, some tracker =>
        if tracker.rpmLimit = rpm then s.rpmTracker else s.rpmTracker.set dep.id { tracker with rpmLimit := rpm }
      | none, _ => s.rpmTracker.erase dep.id }

def syncQuotaState (s : LocalRouterState T) (deployments : List (Deployment T)) : LocalRouterState T :=
  deployments.foldl syncQuota s

def initialCooldown (now cooldownTime : T) (s : LocalRouterState T) (dep : Deployment T) : LocalRouterState T :=
  match dep.status with
  | .cooldown =>
    { s with
      deploymentStatus := s.deploymentStatus.set dep.id .cooldown
      cooldownUntil := s.cooldownUntil.set dep.id (some (dep.cooldownUntil.getD (now + cooldownTime))) }
  | .healthy => s

/-- What the constructor of a router does to its state, which may be shared with other routers. -/
def construct (s : LocalRouterState T) (now : T) (deployments : List (Deployment T)) (cooldownTime : T) : LocalRouterState T :=
  (deployments.foldl (initialCooldown now cooldownTime) s).syncQuotaState deployments

/-! ## What is available -/

/-- The loop of `_get_available_deployments`. There is no result if `None` is compared. -/
def selectAvailable (now : T) : List (Deployment T) → LocalRouterState T → LocalRouterState T × Option (List (Deployment T))
  | [], s => (s, some [])
  | dep :: deps, s =>
    match (s.deploymentStatus.lookup dep.id).getD .healthy with
    | .healthy =>
      let (s, available) := selectAvailable now deps s
      (s, available.map (dep :: ·))
    | .cooldown =>
      match (s.cooldownUntil.lookup dep.id).getD (some 0) with
      | none => (s, none)
      | some cooldownUntil =>
        if now < cooldownUntil then selectAvailable now deps s
        else
          let (s, available) := selectAvailable now deps (s.resetDeployment dep.id)
          (s, available.map (dep :: ·))

def candidates (deployments : List (Deployment T)) (model : String) : List (Deployment T) :=
  if model = modelWildcard then deployments else deployments.filter fun dep => dep.modelName = model

def availableForModel (s : LocalRouterState T) (now : T) (deployments : List (Deployment T)) (model : String) :
    LocalRouterState T × Option (List (Deployment T)) := selectAvailable now (candidates deployments model) s

/-- The loop of `get_available_deployments`, over the ids that have a status. -/
def selectIds (now : T) : List (String × DeploymentStatus) → LocalRouterState T → LocalRouterState T × Option (List String)
  | [], s => (s, some [])
  | (id, .healthy) :: rows, s =>
    let (s, available) := selectIds now rows s
    (s, available.map (id :: ·))
  | (id, .cooldown) :: rows, s =>
    match (s.cooldownUntil.lookup id).getD (some 0) with
    | none => (s, none)
    | some cooldownUntil =>
      if cooldownUntil ≤ now then
        let (s, available) := selectIds now rows (s.resetDeployment id)
        (s, available.map (id :: ·))
      else selectIds now rows s

def getAvailableDeployments (s : LocalRouterState T) (now : T) : LocalRouterState T × Option (List String) :=
  selectIds now s.deploymentStatus.rows s

end LocalRouterState

end AgentProtocol.Router
