-- SUMMARY: Concurrent writes to one record: each commits to the registry and later stamps the cluster state, and the two agree exactly if the last commit and the last stamp are of one kind.
import AgentProtocol.Cluster.StoreLaws
import AgentProtocol.Lib.Run

/-!
# Interleaved writes

A write commits to the registry under the registry's lock and afterwards, outside
that lock, runs the mutation hook, which stamps the record under the lock of the
store. Calls that overlap may therefore stamp in another order than they committed.

A call is a sequence of steps: critical sections, and the work between them. A
schedule picks, again and again, the call that takes its next step, and the time.
-/

namespace AgentProtocol

open Lib

/-- A request to write one record. -/
inductive Call where
  | register (dataset : String) (entry : RegistryEntry)
  | update (dataset sid : String) (merge : String → Except RegistryError String)
      (caller : Option AuthContext)
  | deregister (dataset sid : String) (caller : Option AuthContext)

/-- How far a call has come. -/
inductive Progress where
  | start
  /-- `_do_register` has made sure that the dataset exists. -/
  | initialized
  /-- `update_service` has left its first critical section with this entry. -/
  | read (entry : RegistryEntry)
  /-- It has merged the updates into it. -/
  | merged (entry : RegistryEntry)
  | committed (op : ClusterStore.MutationOp)
  | regenerated (op : ClusterStore.MutationOp)
  | returned (error : Option RegistryError)

def Progress.isCommitted : Progress → Bool
  | .committed _ => true
  | _ => false

def Progress.isRegenerated : Progress → Bool
  | .regenerated _ => true
  | _ => false

namespace Call

def dataset : Call → String
  | .register dataset _ => dataset
  | .update dataset _ _ _ => dataset
  | .deregister dataset _ _ => dataset

def serviceId : Call → String
  | .register _ entry => entry.serviceId
  | .update _ sid _ _ => sid
  | .deregister _ sid _ => sid

def deletes : Call → Bool
  | .deregister _ _ _ => true
  | _ => false

/-- The next step of a call. -/
def advance (call : Call) (now : Now) (s : ClusterStore) (progress : Progress) : ClusterStore × Progress :=
  match s.registry with
  | none => (s, progress)
  | some reg =>
    match progress, call with
    | .start, .register dataset _ =>
      ({ s with registry := some (reg.ensureDatasetInitialized dataset) }, .initialized)
    | .initialized, .register dataset entry =>
      let op := if (reg.getEntry dataset entry.serviceId).isSome then ClusterStore.MutationOp.update else .register
      ({ s with registry := some (reg.putEntry dataset entry) }, .committed op)
    | .start, .update dataset sid _ caller =>
      match reg.readForUpdate dataset sid caller with
      | .error e => (s, .returned (some e))
      | .ok entry => (s, .read entry)
    | .read entry, .update _ _ merge _ =>
      match merge entry.data with
      | .error e => (s, .returned (some e))
      | .ok data => (s, .merged { entry with data })
    | .merged entry, .update dataset _ _ _ =>
      match reg.commitUpdate dataset entry with
      | .error e => (s, .returned (some e))
      | .ok reg => ({ s with registry := some reg }, .committed .update)
    | .start, .deregister dataset sid caller =>
      match reg.commitDeregister dataset sid caller with
      | .error e => (s, .returned (some e))
      | .ok reg => ({ s with registry := some reg }, .committed .deregister)
    | .committed op, call =>
      ({ s with registry := some (reg.regenerateOutput call.dataset) }, .regenerated op)
    | .regenerated op, call => ((s.onLocalMutation now call.dataset call.serviceId op).2, .returned none)
    | progress, _ => (s, progress)

end Call

/-! ## Schedules -/

/-- The calls in flight on one node. -/
structure InFlight (ι : Type) where
  store : ClusterStore
  progress : ι → Progress

namespace InFlight

variable {ι : Type} [DecidableEq ι] (calls : ι → Call)

def start (s : ClusterStore) : InFlight ι := ⟨s, fun _ => .start⟩

def next (c : InFlight ι) (e : ι × Now) : ClusterStore × Progress :=
  (calls e.1).advance e.2 c.store (c.progress e.1)

def step (c : InFlight ι) (e : ι × Now) : InFlight ι :=
  ⟨(c.next calls e).1, Function.update c.progress e.1 (c.next calls e).2⟩

/-- The call that commits in this step. -/
def commitsAt (c : InFlight ι) (e : ι × Now) : Option ι :=
  if (c.next calls e).2.isCommitted then some e.1 else none

/-- The call that stamps in this step. -/
def stampsAt (c : InFlight ι) (e : ι × Now) : Option ι :=
  if (c.progress e.1).isRegenerated then some e.1 else none

/-- The calls that commit along a schedule, in that order. -/
def commits (s : ClusterStore) (es : List (ι × Now)) : List ι :=
  observed (step calls) (commitsAt calls) (start s) es

/-- The calls that stamp along a schedule, in that order. -/
def stamps (s : ClusterStore) (es : List (ι × Now)) : List ι :=
  observed (step calls) stampsAt (start s) es

def Done (c : InFlight ι) : Prop := ∀ i, ∃ error, c.progress i = .returned error

end InFlight

/-! ## One step -/

/-- The registry has an entry for the record. -/
def ClusterStore.holdsEntry (s : ClusterStore) (ds sid : String) : Bool :=
  match s.registry with
  | none => false
  | some reg => (reg.getEntry ds sid).isSome

namespace Call

/-- Where a call can be, given whether it has committed and stamped. -/
def Stage (call : Call) (hasCommitted hasStamped : Prop) : Progress → Prop
  | .start => ¬ hasCommitted ∧ ¬ hasStamped
  | .initialized => ¬ hasCommitted ∧ ¬ hasStamped ∧ call.deletes = false
  | .read entry => ¬ hasCommitted ∧ ¬ hasStamped ∧ call.deletes = false ∧ entry.serviceId = call.serviceId
  | .merged entry => ¬ hasCommitted ∧ ¬ hasStamped ∧ call.deletes = false ∧ entry.serviceId = call.serviceId
  | .committed op => hasCommitted ∧ ¬ hasStamped ∧ (op = .deregister ↔ call.deletes = true)
  | .regenerated op => hasCommitted ∧ ¬ hasStamped ∧ (op = .deregister ↔ call.deletes = true)
  | .returned _ => hasCommitted ↔ hasStamped

/-- What a step of a call does to the record: nothing, the commit, or the stamp. -/
inductive Took (call : Call) (now : Now) (s : ClusterStore) (p : Progress) (c t : Prop) :
    ClusterStore × Progress → Prop
  | quiet {s' : ClusterStore} {p' : Progress} (before : p.isRegenerated = false)
      (after : p'.isCommitted = false) (registry : s'.registry ≠ none) (state : s'.state = s.state)
      (entry : s'.holdsEntry call.dataset call.serviceId = s.holdsEntry call.dataset call.serviceId)
      (stage : call.Stage c t p') : Took call now s p c t (s', p')
  | commit {s' : ClusterStore} {p' : Progress} (before : p.isRegenerated = false)
      (after : p'.isCommitted = true) (registry : s'.registry ≠ none) (state : s'.state = s.state)
      (entry : s'.holdsEntry call.dataset call.serviceId = !call.deletes)
      (stage : call.Stage True t p') : Took call now s p c t (s', p')
  | stamp {op : ClusterStore.MutationOp} (before : p = .regenerated op)
      (kind : op = .deregister ↔ call.deletes = true) (committed : c) :
      Took call now s p c t (s.stampMutation now call.dataset call.serviceId op, .returned none)

theorem took_advance {call : Call} {now : Now} {s : ClusterStore} {p : Progress} {c t : Prop}
    (hreg : s.registry ≠ none) (hstage : call.Stage c t p) : Took call now s p c t (call.advance now s p) := by
  obtain ⟨reg, hreg'⟩ := Option.ne_none_iff_exists'.mp hreg
  unfold advance
  rw [hreg']
  cases p with
  | start =>
    cases call with
    | register dataset entry =>
      refine .quiet rfl rfl (Option.some_ne_none _) rfl ?_ ⟨hstage.1, hstage.2, rfl⟩
      simp [ClusterStore.holdsEntry, hreg']
    | update dataset sid merge caller =>
      dsimp only
      split
      · exact .quiet rfl rfl hreg rfl rfl ⟨fun h => absurd h hstage.1, fun h => absurd h hstage.2⟩
      · rename_i entry hread
        refine .quiet rfl rfl hreg rfl rfl ⟨hstage.1, hstage.2, rfl, ?_⟩
        exact RegistryService.serviceId_of_readForUpdate hread
    | deregister dataset sid caller =>
      dsimp only
      split
      · exact .quiet rfl rfl hreg rfl rfl ⟨fun h => absurd h hstage.1, fun h => absurd h hstage.2⟩
      · rename_i reg' hcommit
        refine .commit rfl rfl (Option.some_ne_none _) rfl ?_ ⟨trivial, hstage.2, by simp [deletes]⟩
        have hnone := RegistryService.getEntry_of_commitDeregister hcommit
        simp [ClusterStore.holdsEntry, Call.dataset, Call.serviceId, hnone, deletes]
  | initialized =>
    cases call with
    | register dataset entry =>
      refine .commit rfl rfl (Option.some_ne_none _) rfl ?_ ⟨trivial, hstage.2.1, ?_⟩
      · simp [ClusterStore.holdsEntry, Call.dataset, Call.serviceId, deletes]
      · split <;> simp [deletes]
    | update | deregister => exact .quiet rfl rfl hreg rfl rfl hstage
  | read entry =>
    cases call with
    | update dataset sid merge caller =>
      dsimp only
      split
      · exact .quiet rfl rfl hreg rfl rfl ⟨fun h => absurd h hstage.1, fun h => absurd h hstage.2.1⟩
      · exact .quiet rfl rfl hreg rfl rfl hstage
    | register | deregister => exact .quiet rfl rfl hreg rfl rfl hstage
  | merged entry =>
    cases call with
    | update dataset sid merge caller =>
      dsimp only
      split
      · exact .quiet rfl rfl hreg rfl rfl ⟨fun h => absurd h hstage.1, fun h => absurd h hstage.2.1⟩
      · rename_i reg' hcommit
        refine .commit rfl rfl (Option.some_ne_none _) rfl ?_ ⟨trivial, hstage.2.1, by simp [deletes]⟩
        have hsid : entry.serviceId = sid := hstage.2.2.2
        rw [RegistryService.commitUpdate_ok hcommit]
        simp [ClusterStore.holdsEntry, Call.dataset, Call.serviceId, ← hsid, deletes]
    | register | deregister => exact .quiet rfl rfl hreg rfl rfl hstage
  | committed op =>
    refine .quiet rfl rfl (Option.some_ne_none _) rfl ?_ hstage
    simp [ClusterStore.holdsEntry, hreg']
  | regenerated op => exact .stamp rfl hstage.2.2 hstage.1
  | returned error => exact .quiet rfl rfl hreg rfl rfl hstage

end Call

theorem ClusterStore.contains_stampMutation (s : ClusterStore) (now : Now) (ds sid : String)
    {op : ClusterStore.MutationOp} {deletes : Bool} (hop : op = .deregister ↔ deletes = true) :
    (s.stampMutation now ds sid op).state.localVersions.contains (makeKey ds sid) = !deletes ∧
      (s.stampMutation now ds sid op).state.tombstones.contains (makeKey ds sid) = deletes := by
  unfold Dict.contains
  cases deletes with
  | true =>
    obtain rfl := hop.mpr rfl
    obtain ⟨hver, htomb⟩ := s.stampMutation_dead now ds sid (makeKey ds sid)
    rw [hver, htomb]
    simp
  | false =>
    have hlive : op ≠ .deregister := fun h => by cases hop.mp h
    obtain ⟨hver, htomb⟩ := s.stampMutation_live now ds sid hlive (makeKey ds sid)
    rw [hver, htomb]
    simp

theorem ClusterStore.stampMutation_registry (s : ClusterStore) (now : Now) (ds sid : String)
    (op : ClusterStore.MutationOp) : (s.stampMutation now ds sid op).registry = s.registry := by
  cases op <;> rfl

/-- The record has a version or a tombstone. -/
def ClusterStore.Known (s : ClusterStore) (ds sid : String) : Prop :=
  s.state.localVersions.contains (makeKey ds sid) = true ∨ s.state.tombstones.contains (makeKey ds sid) = true

/-- The cluster state and the registry agree on a record: a record that was ever
replicated has a tombstone if it is gone, and a record has a version if it is there. -/
structure ClusterStore.InStep (s : ClusterStore) (ds sid : String) (replicated : Prop) : Prop where
  tombstone : s.state.tombstones.contains (makeKey ds sid) = true ↔
    s.holdsEntry ds sid = false ∧ replicated
  version : s.state.localVersions.contains (makeKey ds sid) = true ↔ s.holdsEntry ds sid = true

/-! ## Whole schedules -/

namespace InFlight

open ClusterStore

variable {ι : Type} [DecidableEq ι] {calls : ι → Call} {ds sid : String} {s : ClusterStore}

/-- The registry reflects the last commit, and the cluster state the last stamp. -/
structure Track (calls : ι → Call) (ds sid : String) (s : ClusterStore) (committed stamped : List ι)
    (c : InFlight ι) : Prop where
  registry : c.store.registry ≠ none
  entry : c.store.holdsEntry ds sid =
    (committed.getLast?.map fun i => !(calls i).deletes).getD (s.holdsEntry ds sid)
  version : c.store.state.localVersions.contains (makeKey ds sid) =
    (stamped.getLast?.map fun i => !(calls i).deletes).getD (s.state.localVersions.contains (makeKey ds sid))
  tombstone : c.store.state.tombstones.contains (makeKey ds sid) =
    (stamped.getLast?.map fun i => (calls i).deletes).getD (s.state.tombstones.contains (makeKey ds sid))
  stage : ∀ i, (calls i).Stage (i ∈ committed) (i ∈ stamped) (c.progress i)

variable {c : InFlight ι}

theorem stage_update {committed stamped more more' : List ι} {i : ι} {p : Progress}
    (h : ∀ j, (calls j).Stage (j ∈ committed) (j ∈ stamped) (c.progress j))
    (hmore : ∀ j ∈ more, j = i) (hmore' : ∀ j ∈ more', j = i)
    (hp : (calls i).Stage (i ∈ committed ++ more) (i ∈ stamped ++ more') p) (j : ι) :
    (calls j).Stage (j ∈ committed ++ more) (j ∈ stamped ++ more') (Function.update c.progress i p j) := by
  by_cases hj : j = i
  · subst hj
    rw [Function.update_self]
    exact hp
  · have hno : j ∉ more := fun hm => hj (hmore j hm)
    have hno' : j ∉ more' := fun hm => hj (hmore' j hm)
    rw [Function.update_of_ne hj]
    simpa [hno, hno'] using h j

variable {committed stamped : List ι}

theorem track_step (hkey : ∀ i, (calls i).dataset = ds ∧ (calls i).serviceId = sid)
    (h : Track calls ds sid s committed stamped c) (e : ι × Now) :
    Track calls ds sid s (committed ++ (c.commitsAt calls e).toList) (stamped ++ (c.stampsAt e).toList) (c.step calls e) := by
  obtain ⟨i, now⟩ := e
  obtain ⟨hds, hsid⟩ := hkey i
  have htook : Call.Took (calls i) now c.store (c.progress i) _ _ _ :=
    Call.took_advance h.registry (h.stage i)
  generalize hnext : (calls i).advance now c.store (c.progress i) = r at htook
  have hstep : c.step calls (i, now) = ⟨r.1, Function.update c.progress i r.2⟩ := by
    simp [step, next, hnext]
  rw [hstep]
  unfold commitsAt stampsAt next
  rw [hnext]
  cases htook with
  | quiet hbefore hafter hreg hstate hentry hstage =>
    rw [hds, hsid] at hentry
    simp only [hbefore, hafter, Bool.false_eq_true, if_false, Option.toList_none]
    refine ⟨hreg, ?_, ?_, ?_, stage_update h.stage (by simp) (by simp) (by simpa using hstage)⟩
    · rw [hentry, List.append_nil, h.entry]
    · rw [hstate, List.append_nil, h.version]
    · rw [hstate, List.append_nil, h.tombstone]
  | commit hbefore hafter hreg hstate hentry hstage =>
    rw [hds, hsid] at hentry
    simp only [hbefore, hafter, Bool.false_eq_true, if_true, if_false, Option.toList_none, Option.toList_some]
    refine ⟨hreg, ?_, ?_, ?_, stage_update h.stage (by simp) (by simp) (by simpa using hstage)⟩
    · rw [hentry, List.getLast?_concat]
      rfl
    · rw [hstate, List.append_nil, h.version]
    · rw [hstate, List.append_nil, h.tombstone]
  | stamp hbefore hkind hcommitted =>
    obtain ⟨hver, htomb⟩ := c.store.contains_stampMutation now ds sid hkind
    rw [hds, hsid]
    simp only [hbefore, Progress.isRegenerated, Progress.isCommitted, Bool.false_eq_true, if_true, if_false,
      Option.toList_none, Option.toList_some]
    refine ⟨?_, ?_, ?_, ?_, stage_update h.stage (by simp) (by simp) ?_⟩
    · rw [stampMutation_registry]
      exact h.registry
    · rw [holdsEntry, stampMutation_registry, List.append_nil, ← h.entry]
      rfl
    · rw [hver, List.getLast?_concat]
      rfl
    · rw [htomb, List.getLast?_concat]
      rfl
    · simp [Call.Stage, hcommitted]

theorem track_run (hkey : ∀ i, (calls i).dataset = ds ∧ (calls i).serviceId = sid)
    (hreg : s.registry ≠ none) (es : List (ι × Now)) :
    Track calls ds sid s (commits calls s es) (stamps calls s es) (run (step calls) (start s) es) := by
  refine run_induct (I := fun es c => Track calls ds sid s (commits calls s es) (stamps calls s es) c)
    ⟨hreg, rfl, rfl, rfl, fun i => ?_⟩ (fun pre e ih => ?_) es
  · simp [start, Call.Stage, commits, stamps, observed]
  · unfold commits stamps
    rw [observed_append, observed_append]
    simpa [observed, commits, stamps] using track_step hkey ih e

omit [DecidableEq ι] in
theorem Track.mem_iff (h : Track calls ds sid s committed stamped c) (hdone : c.Done) (i : ι) : i ∈ committed ↔ i ∈ stamped := by
  obtain ⟨error, hi⟩ := hdone i
  have hstage := h.stage i
  rw [hi] at hstage
  exact hstage

/-- Any calls on one record, in any interleaving, from a state in which the registry and
the cluster state agree on it: once all have returned they agree again exactly if the
call that committed last and the call that stamped last are both deregistrations or
both not. -/
theorem in_step_iff (calls : ι → Call) (ds sid : String)
    (hkey : ∀ i, (calls i).dataset = ds ∧ (calls i).serviceId = sid) (s : ClusterStore)
    (hreg : s.registry ≠ none) (hstart : s.InStep ds sid (s.Known ds sid)) (es : List (ι × Now))
    (hdone : (run (step calls) (start s) es).Done) :
    (run (step calls) (start s) es).store.InStep ds sid (s.Known ds sid ∨ stamps calls s es ≠ []) ↔
      (commits calls s es).getLast?.map (fun i => (calls i).deletes) =
        (stamps calls s es).getLast?.map (fun i => (calls i).deletes) := by
  have htrack := track_run hkey hreg es
  have hmem := htrack.mem_iff hdone
  obtain ⟨-, hentry, hversion, htombstone, -⟩ := htrack
  generalize run (step calls) (start s) es = c at hentry hversion htombstone ⊢
  cases hC : (commits calls s es).getLast? with
  | none =>
    have hcommits : commits calls s es = [] := List.getLast?_eq_none_iff.mp hC
    have hstamps : stamps calls s es = [] := by
      refine List.eq_nil_iff_forall_not_mem.mpr fun i hi => ?_
      rw [← hmem i, hcommits] at hi
      cases hi
    rw [hcommits] at hentry
    rw [hstamps] at hversion htombstone ⊢
    refine iff_of_true ⟨?_, ?_⟩ rfl
    · rw [htombstone, hentry]
      simpa using hstart.tombstone
    · rw [hversion, hentry]
      simpa using hstart.version
  | some i =>
    have hi : i ∈ stamps calls s es := (hmem i).mp (List.mem_of_getLast? hC)
    have hne : stamps calls s es ≠ [] := List.ne_nil_of_mem hi
    obtain ⟨j, hS⟩ := Option.ne_none_iff_exists'.mp (mt List.getLast?_eq_none_iff.mp hne)
    rw [hC] at hentry
    rw [hS] at hversion htombstone ⊢
    simp only [Option.map_some, Option.getD_some] at hentry hversion htombstone ⊢
    refine ⟨fun h => ?_, fun h => ⟨?_, ?_⟩⟩
    · have hagree := h.version
      rw [hversion, hentry] at hagree
      exact congrArg some (by simpa using (Bool.eq_iff_iff.mpr hagree).symm)
    · rw [htombstone, hentry, ← Option.some.inj h]
      simp [hne]
    · rw [hversion, hentry, ← Option.some.inj h]

/-- A node that replicates one service. -/
def oneService : ClusterStore where
  state := { nodeId := "A", versionClock := 100, localVersions := ⟨[(makeKey "d" "s", ⟨100, "A"⟩)], by decide⟩ }
  registry := some
    { datasets := ["d"]
      entries := ⟨[("d", ⟨[⟨"s", .generic, .apiConfig, "", none, none⟩], by decide⟩)], by decide⟩ }

/-- An update and a deregistration of the service. -/
def updateAndDelete : Bool → Call
  | false => .update "d" "s" (fun data => .ok (data ++ "!")) none
  | true => .deregister "d" "s" none

theorem updateAndDelete_key (i : Bool) : (updateAndDelete i).dataset = "d" ∧ (updateAndDelete i).serviceId = "s" := by
  cases i <;> exact ⟨rfl, rfl⟩

theorem inStep_oneService : oneService.InStep "d" "s" (oneService.Known "d" "s") :=
  ⟨⟨fun h => absurd h (by decide), fun h => absurd h.1 (by decide)⟩, by decide⟩

/-- The update stamps before the deregistration commits. -/
def inOrder : List (Bool × Now) :=
  [false, false, false, false, false, true, true, true].map fun i => (i, ⟨1, 1000⟩)

theorem in_step_sample : (run (step updateAndDelete) (start oneService) inOrder).store.InStep "d" "s"
      (oneService.Known "d" "s" ∨ stamps updateAndDelete oneService inOrder ≠ []) := by
  have hdone : (run (step updateAndDelete) (start oneService) inOrder).Done := by
    intro i
    cases i <;> exact ⟨none, rfl⟩
  exact (in_step_iff updateAndDelete "d" "s" updateAndDelete_key oneService (by decide) inStep_oneService
    inOrder hdone).mpr rfl

/-- The update commits first and stamps last: the service is gone, and its tombstone
too. -/
theorem deletion_lost : ¬ ∀ (calls : Bool → Call) (ds sid : String),
      (∀ i, (calls i).dataset = ds ∧ (calls i).serviceId = sid) → ∀ s : ClusterStore, s.registry ≠ none →
      s.InStep ds sid (s.Known ds sid) → ∀ es : List (Bool × Now), (run (step calls) (start s) es).Done →
      (run (step calls) (start s) es).store.InStep ds sid (s.Known ds sid ∨ stamps calls s es ≠ []) := by
  intro h
  have hdone : (run (step updateAndDelete) (start oneService)
      ([false, false, false, true, true, true, false, false].map fun i => (i, ⟨1, 1000⟩))).Done := by
    intro i
    cases i <;> exact ⟨none, rfl⟩
  have hstep := h updateAndDelete "d" "s" updateAndDelete_key oneService (by decide) inStep_oneService _ hdone
  exact absurd (hstep.version.mp (by decide)) (by decide)

end InFlight

end AgentProtocol
