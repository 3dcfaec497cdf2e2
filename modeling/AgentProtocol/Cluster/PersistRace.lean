-- SUMMARY: Concurrent membership operations with _persist taken apart: in any run the state file ends up with what the roster amounts to, as long as no snapshot is assigned after the roster has moved on.
import AgentProtocol.Lib.Debt
import AgentProtocol.Cluster.Control

/-!
# Persisting the membership

`_persist` takes its snapshot of the roster under the membership lock, then assigns the
three fields of the state one by one and saves the state, without that lock. Between any
two of these, and between any two sections of the other operations, other threads may run.

What keeps the state file right is that whoever changes the roster has a `_persist` ahead
of it: the fields of the state agree with the roster, or somebody has still to write them.
The exceptions are an assignment from a snapshot that is no longer what the roster gives,
and `my_record`, which may file a record that no `_persist` follows.
-/

namespace AgentProtocol

open Lib

/-! ## What `_persist` writes -/

/-- The fields of the state that `_persist` assigns. -/
inductive Part where
  | clusterId
  | lastRoster
  | myMembershipVersion

/-- The three values, as `_persist` computes them. -/
structure Snapshot where
  clusterId : Option String
  lastRoster : List WireRecord
  myMembershipVersion : Option Version
  deriving DecidableEq

/-- Both give the same value for this field. -/
def Snapshot.Agrees (part : Part) (a b : Snapshot) : Prop :=
  match part with
  | .clusterId => a.clusterId = b.clusterId
  | .lastRoster => a.lastRoster = b.lastRoster
  | .myMembershipVersion => a.myMembershipVersion = b.myMembershipVersion

instance (part : Part) (a b : Snapshot) : Decidable (a.Agrees part b) := by
  unfold Snapshot.Agrees
  split <;> infer_instance

variable {part : Part} {a b : Snapshot}

theorem Snapshot.agrees_of_eq (h : a = b) : a.Agrees part b := by
  subst h
  cases part <;> rfl

theorem Snapshot.Agrees.trans {a b c : Snapshot} (h : a.Agrees part b) (h' : b.Agrees part c) : a.Agrees part c := by
  cases part <;> exact Eq.trans h h'

theorem Snapshot.Agrees.symm (h : a.Agrees part b) : b.Agrees part a := by
  cases part <;> exact Eq.symm h

theorem Snapshot.ext_of_agrees (h : ∀ part, a.Agrees part b) : a = b := by
  obtain ⟨clusterId, lastRoster, myMembershipVersion⟩ := a
  obtain rfl : clusterId = b.clusterId := h .clusterId
  obtain rfl : lastRoster = b.lastRoster := h .lastRoster
  obtain rfl : myMembershipVersion = b.myMembershipVersion := h .myMembershipVersion
  rfl

namespace ClusterState

/-- The three fields as they are. -/
def membership (st : ClusterState) : Snapshot where
  clusterId := st.clusterId
  lastRoster := st.lastRoster
  myMembershipVersion := st.myMembershipVersion

/-- Assign one of the fields from a snapshot. -/
def put (st : ClusterState) (snapshot : Snapshot) : Part → ClusterState
  | .clusterId => { st with clusterId := snapshot.clusterId }
  | .lastRoster => { st with lastRoster := snapshot.lastRoster }
  | .myMembershipVersion => { st with myMembershipVersion := snapshot.myMembershipVersion }

theorem put_agrees (st : ClusterState) (snapshot : Snapshot) (part : Part) :
    (st.put snapshot part).membership.Agrees part snapshot := by
  cases part <;> rfl

theorem put_agrees_of_ne (st : ClusterState) (snapshot : Snapshot) {part part' : Part} (h : part ≠ part') :
    (st.put snapshot part).membership.Agrees part' st.membership := by
  cases part <;> cases part' <;> first | rfl | exact absurd rfl h

end ClusterState

namespace MembershipStore

/-- What `_persist` reads under the lock. -/
def persistSnapshot (m : MembershipStore) : Snapshot :=
  let own := m.roster.get? m.nodeId
  let cid := own.bind (·.clusterId)
  { clusterId := cid
    lastRoster := (m.roster.rows.filter fun r => r.nodeId ≠ m.nodeId && r.clusterId = cid).map MembershipRecord.toDict
    myMembershipVersion := own.map (·.version) }

def assignPart (m : MembershipStore) (snapshot : Snapshot) (part : Part) : MembershipStore :=
  { m with store := { m.store with state := m.store.state.put snapshot part } }

def saveState (m : MembershipStore) : MembershipStore := { m with store := m.store.saveState }

/-- What is in the state file is what the roster gives. -/
def Persisted (m : MembershipStore) : Prop := m.store.saved.membership = m.persistSnapshot

instance (m : MembershipStore) : Decidable m.Persisted :=
  inferInstanceAs (Decidable (m.store.saved.membership = m.persistSnapshot))

/-- Between calls, when nothing is to be written. -/
structure AtRest (m : MembershipStore) : Prop where
  node : m.store.saved.nodeId = m.nodeId
  file : m.Persisted
  state : m.store.state.membership = m.persistSnapshot

/-- The process starts again from the state file; the registry is what its own files give. -/
def reopen (m : MembershipStore) (registry : Option RegistryService) (now : Now) : MembershipStore :=
  initFromState { state := m.store.saved, config := m.store.config, registry, advertise := m.store.advertise
                  authStore := m.store.authStore } now

end MembershipStore

/-! ## Runs -/

/-- What a thread of the node does next. -/
inductive RosterMove where
  | sec (s : Section)
  /-- An operation of the cluster store, which saves the same state. -/
  | data (op : Operation)
  | snapshot
  | assign (snapshot : Snapshot) (part : Part)
  | save

abbrev PersistThread := Thread MembershipStore Reply RosterMove

namespace MembershipStore

def exec (m : MembershipStore) (r : Reply) : RosterMove → MembershipStore
  | .sec s => m.act r.toInput s
  | .data op => { m with store := m.store.exec r.now op }
  | .snapshot => m
  | .assign snapshot part => m.assignPart snapshot part
  | .save => m.saveState

end MembershipStore

/-- `_persist`, step by step. -/
def persistSteps (k : MembershipStore → Now → PersistThread) : PersistThread :=
  .step .snapshot fun m _ =>
    let snapshot := m.persistSnapshot
    .step (.assign snapshot .clusterId) fun _ _ =>
      .step (.assign snapshot .lastRoster) fun _ _ =>
        .step (.assign snapshot .myMembershipVersion) fun _ _ =>
          .step .save fun m r => k m r.now

/-- The operations with `_persist` taken apart. -/
def persistHost : Host PersistThread where
  atomic s k :=
    match s with
    | .persist => persistSteps k
    | s => .step (.sec s) fun m r => k m r.now
  join _ _ k := .step (.sec .read) fun _ r => k r.answer
  tell _ k := .step (.sec .read) fun _ _ => k

/-- What a node is called for, by its users, its peers and its own loops. -/
inductive RosterCall where
  | merge (records : List WireRecord)
  | setAdd (members : List Member) (token : Option String) (newId : String)
  | setRemove (members : List Member)
  | adopt (clusterId : String) (roster : List WireRecord)
  | handleEvictSelf (fromNode : String) (token : Option String)
  | becomeStandalone
  | handleJoin (body : JoinRequest)
  | handleEvicted (fromNode : String) (token : Option String)
  | serveSetSync (fromNode : String) (records : List WireRecord) (token : Option String)
  | reconcileConnections
  | data (op : Operation)

def RosterCall.thread : RosterCall → PersistThread
  | .merge records => persistHost.merge records .done
  | .setAdd members token newId => persistHost.setAdd members token newId fun _ _ => .done
  | .setRemove members => persistHost.setRemove members fun _ => .done
  | .adopt clusterId roster => persistHost.adopt clusterId roster fun _ => .done
  | .handleEvictSelf fromNode token => persistHost.handleEvictSelf fromNode token .done
  | .becomeStandalone => persistHost.becomeStandalone .done
  | .handleJoin body => persistHost.handleJoin body fun _ => .done
  | .handleEvicted fromNode token => persistHost.handleEvicted fromNode token .done
  | .serveSetSync fromNode records token => persistHost.serveSetSync fromNode records token .done
  | .reconcileConnections => persistHost.reconcileConnections .done
  | .data op => .step (.data op) fun _ _ => .done

abbrev Persisting := Pool MembershipStore Reply RosterMove

/-- A call comes in, or a thread takes its next step. -/
inductive PersistEvent where
  | call (call : RosterCall)
  | go (thread : ℕ) (r : Reply)

namespace Persisting

def step (p : Persisting) : PersistEvent → Persisting
  | .call call => p.spawn [call.thread]
  | .go thread r => Pool.step MembershipStore.exec p (thread, r)

/-- All calls have returned. -/
def Idle (p : Persisting) : Prop := ∀ t ∈ p.threads, t.finished = true

instance (p : Persisting) : Decidable p.Idle := inferInstanceAs (Decidable (∀ t ∈ p.threads, t.finished = true))

end Persisting

namespace RosterMove

def assigns (part : Part) (e : RosterMove) : Prop := ∃ snapshot, e = .assign snapshot part

def saves (e : RosterMove) : Prop := e = .save

end RosterMove

/-- What a step must meet. A snapshot is assigned while it is still what the roster gives,
unless the field is to be written once more; and `my_record` finds a record, unless the
version is to be written once more. -/
def Persisting.Timely (p : Persisting) : PersistEvent → Prop
  | .call _ => True
  | .go thread r => match p.pending thread with
    | some (.assign snapshot part) => snapshot.Agrees part p.state.persistSnapshot ∨
        (p.step (.go thread r)).Owed (RosterMove.assigns part)
    | some (.sec .own) => (p.state.roster.get? p.state.nodeId).isSome ∨
        (p.step (.go thread r)).Owed (RosterMove.assigns .myMembershipVersion)
    | _ => True

/-! ## What threads do -/

/-- What a section does to the roster's snapshot is made up for by what follows; whatever
is assigned is saved. -/
def Due : RosterMove → (MembershipStore → Reply → PersistThread) → Prop
  | .sec .own, _ => True
  | .sec .persist, _ => False
  | .sec s, next => ∀ m r part, (m.act r.toInput s).persistSnapshot.Agrees part m.persistSnapshot ∨
      (next m r).Owes (RosterMove.assigns part)
  | .assign _ _, next => ∀ m r, (next m r).Owes RosterMove.saves
  | _, _ => True

variable {s : Section}

theorem due_sec {next : MembershipStore → Reply → PersistThread} (h : Due (.sec s) next) :
    s = .own ∨ s ≠ .persist ∧ ∀ m r part, (m.act r.toInput s).persistSnapshot.Agrees part m.persistSnapshot ∨
      (next m r).Owes (RosterMove.assigns part) := by
  cases s with
  | own => exact .inl rfl
  | persist => exact h.elim
  | read | form | mint | ordain | assign | bury | release | merge | clear | forget | disconnect | connect | collect =>
    exact .inr ⟨nofun, h⟩

/-- The thread makes up for what it does; if `owing`, also for what was done before it. -/
structure Ready (owing : Prop) (t : PersistThread) : Prop where
  due : t.Throughout Due
  owes : owing → ∀ part, t.Owes (RosterMove.assigns part)

variable {owing : Prop} {k : PersistThread}

theorem Ready.rest (h : Ready owing k) : Ready False k := ⟨h.due, False.elim⟩

theorem ready_done : Ready False .done := ⟨trivial, False.elim⟩

theorem persistSnapshot_congr {m m' : MembershipStore} (hroster : m'.roster = m.roster) (hnode : m'.nodeId = m.nodeId) :
    m'.persistSnapshot = m.persistSnapshot := by
  rw [MembershipStore.persistSnapshot, hroster, hnode]
  rfl

def Quiet (s : Section) : Prop := ∀ (m : MembershipStore) (i : Input), (m.act i s).persistSnapshot = m.persistSnapshot

theorem quiet_of_same (hroster : ∀ (m : MembershipStore) i, (m.act i s).roster = m.roster) : Quiet s := by
  intro m i
  exact persistSnapshot_congr (hroster m i) (m.act_nodeId i s)

theorem quiet_read : Quiet .read := quiet_of_same fun _ _ => rfl

theorem quiet_disconnect (node : String) : Quiet (.disconnect node) := quiet_of_same fun _ _ => rfl

theorem quiet_connect (address : String) : Quiet (.connect address) := quiet_of_same fun _ _ => rfl

theorem quiet_ordain (clusterId : String) : Quiet (.ordain clusterId) := quiet_of_same fun _ _ => rfl

/-! ### Sections -/

/-- Neither `_persist` nor `my_record`. -/
def Section.plain : Section → Bool
  | .own => false
  | .persist => false
  | _ => true

theorem due_plain (hs : s.plain = true) {next : MembershipStore → Reply → PersistThread}
    (h : ∀ m r part, (m.act r.toInput s).persistSnapshot.Agrees part m.persistSnapshot ∨
      (next m r).Owes (RosterMove.assigns part)) : Due (.sec s) next := by
  cases s with
  | own | persist => cases hs
  | read | form | mint | ordain | assign | bury | release | merge | clear | forget | disconnect | connect | collect =>
    exact h

theorem atomic_plain (hs : s.plain = true) (k : MembershipStore → Now → PersistThread) :
    persistHost.atomic s k = .step (.sec s) fun m r => k m r.now := by
  cases s with
  | persist => cases hs
  | own | read | form | mint | ordain | assign | bury | release | merge | clear | forget | disconnect | connect
  | collect => rfl

theorem ready_quiet {k : MembershipStore → Now → PersistThread} (hs : s.plain = true) (hquiet : Quiet s)
    (hk : ∀ m now, Ready owing (k m now)) : Ready owing (persistHost.atomic s k) := by
  rw [atomic_plain hs]
  refine ⟨⟨due_plain hs fun m r part => ?_, fun m r => (hk m r.now).due⟩, fun h part => ?_⟩
  · exact .inl (Snapshot.agrees_of_eq (hquiet m r.toInput))
  · exact .later fun m r => (hk m r.now).owes h part

theorem ready_change {k : MembershipStore → Now → PersistThread} (hs : s.plain = true)
    (hk : ∀ m now, Ready True (k m now)) : Ready owing (persistHost.atomic s k) := by
  rw [atomic_plain hs]
  refine ⟨⟨due_plain hs fun m r part => ?_, fun m r => (hk m r.now).due⟩, fun _ part => ?_⟩
  · exact .inr ((hk m r.now).owes trivial part)
  · exact .later fun m r => (hk m r.now).owes trivial part

theorem ready_read {k : MembershipStore → Now → PersistThread} (hk : ∀ m now, Ready owing (k m now)) :
    Ready owing (persistHost.atomic .read k) := ready_quiet rfl quiet_read hk

theorem ready_join {address : String} {body : JoinRequest} {k : Except RpcError JoinResponse → PersistThread}
    (hk : ∀ answer, Ready owing (k answer)) : Ready owing (persistHost.join address body k) :=
  ⟨⟨fun _ _ _ => .inl (Snapshot.agrees_of_eq rfl), fun _ r => (hk r.answer).due⟩,
    fun h part => .later fun _ r => (hk r.answer).owes h part⟩

theorem ready_tell {msg : Message} (hk : Ready owing k) : Ready owing (persistHost.tell msg k) :=
  ⟨⟨fun _ _ _ => .inl (Snapshot.agrees_of_eq rfl), fun _ _ => hk.due⟩, fun h part => .later fun _ _ => hk.owes h part⟩

theorem ready_persist (hk : Ready False k) : Ready owing (persistHost.run .persist k) := by
  refine ⟨?_, fun _ part => ?_⟩
  · refine ⟨trivial, fun m _ => ⟨fun _ _ => ?_, fun _ _ => ⟨fun _ _ => ?_, fun _ _ => ⟨fun _ _ => ?_, fun _ _ =>
      ⟨trivial, fun _ _ => hk.due⟩⟩⟩⟩⟩
    · exact .later fun _ _ => .later fun _ _ => .now rfl
    · exact .later fun _ _ => .now rfl
    · exact .now rfl
  · refine .later fun m _ => ?_
    cases part with
    | clusterId => exact .now ⟨_, rfl⟩
    | lastRoster => exact .later fun _ _ => .now ⟨_, rfl⟩
    | myMembershipVersion => exact .later fun _ _ => .later fun _ _ => .now ⟨_, rfl⟩

theorem ready_each {α : Type} {l : List α} {f : α → PersistThread → PersistThread}
    (hf : ∀ x k, Ready owing k → Ready owing (f x k)) (hk : Ready owing k) : Ready owing (Host.each l f k) := by
  induction l with
  | nil => exact hk
  | cons x l ih => exact hf x _ ih

/-! ### Operations -/

theorem ready_disconnectAll (nodes : List String) (hk : Ready owing k) : Ready owing (persistHost.disconnectAll nodes k) :=
  ready_each (fun node _ hk => ready_quiet rfl (quiet_disconnect node) fun _ _ => hk) hk

theorem ready_becomeStandalone (hk : Ready False k) : Ready owing (persistHost.becomeStandalone k) :=
  ready_change rfl fun _ _ => ready_disconnectAll _ (ready_persist hk)

theorem mergeLoop_unchanged (own : String) (records : List WireRecord) :
    ∀ {roster : Table MembershipRecord.nodeId} {changed evicted : Bool},
      (MembershipStore.mergeLoop own records roster changed evicted).2.1 = false →
      changed = false ∧ (MembershipStore.mergeLoop own records roster changed evicted).1 = roster := by
  induction records with
  | nil => exact fun h => ⟨h, rfl⟩
  | cons raw rest ih =>
    intro roster changed evicted h
    unfold MembershipStore.mergeLoop at h ⊢
    cases hraw : raw.fromDict with
    | none =>
      rw [hraw] at h
      exact ih h
    | some r =>
      rw [hraw] at h
      dsimp only at h ⊢
      split at h
      · rename_i hold
        rw [if_pos hold]
        exact ih h
      · rename_i hnew
        rw [if_neg hnew]
        split at h
        · rename_i hself
          rw [if_pos hself]
          exact ih h
        · cases (ih h).1

theorem ready_merge (records : List WireRecord) (hk : Ready owing k) : Ready owing (persistHost.merge records k) := by
  have hstandalone : ∀ owing, Ready owing (persistHost.becomeStandalone k) := fun _ => ready_becomeStandalone hk.rest
  have hpersist : ∀ owing, Ready owing (persistHost.run .persist k) := fun _ => ready_persist hk.rest
  refine ⟨⟨fun m r part => ?_, fun m r => ?_⟩, fun h part => .later fun m r => ?_⟩
  · dsimp only
    split
    · exact .inr ((hstandalone True).owes trivial part)
    · split
      · exact .inr ((hpersist True).owes trivial part)
      · rename_i hchanged
        refine .inl (Snapshot.agrees_of_eq ?_)
        have hsame : (m.act r.toInput (.merge records)).roster = m.roster :=
          (mergeLoop_unchanged m.nodeId records (by simpa using hchanged)).2
        exact persistSnapshot_congr hsame (m.act_nodeId r.toInput (.merge records))
  · dsimp only
    split
    · exact (hstandalone False).due
    · split
      · exact (hpersist False).due
      · exact hk.due
  · dsimp only
    split
    · exact (hstandalone True).owes trivial part
    · split
      · exact (hpersist True).owes trivial part
      · exact hk.owes h part

theorem ready_pushRecords (records : List WireRecord) (hk : Ready owing k) : Ready owing (persistHost.pushRecords records k) := by
  refine ready_read fun _ _ => ready_read fun _ _ => ready_each (fun rec k hk => ?_) hk
  exact ready_read fun _ _ => ready_tell hk

theorem ready_pushOwn (hk : Ready False k) : Ready False (persistHost.pushOwn k) :=
  ⟨⟨trivial, fun _ _ => (ready_pushRecords _ hk).due⟩, False.elim⟩

theorem ready_reconcileConnections (hk : Ready owing k) : Ready owing (persistHost.reconcileConnections k) := by
  refine ready_read fun m _ => ?_
  split
  · exact hk
  · refine ready_read fun _ _ => ready_read fun _ _ => ready_each (fun p k hk => ?_) ?_
    · exact ready_quiet rfl (quiet_connect p.2) fun _ _ => hk
    refine ready_each (fun node k hk => ready_read fun m _ => ?_) hk
    split
    · exact ready_quiet rfl (quiet_disconnect node) fun _ _ => hk
    · exact hk

theorem ready_leaveOld (old : String) (hk : Ready True k) : Ready owing (persistHost.leaveOld old k) := by
  refine ready_read fun _ _ => ready_each (fun rec k hk => ready_read fun _ _ => ready_tell hk) ?_
  exact ready_disconnectAll _ (ready_change rfl fun _ _ => hk)

theorem ready_enter (clusterId : String) (roster : List WireRecord) {k : JoinResponse → PersistThread}
    (hk : ∀ answer, Ready False (k answer)) : Ready owing (persistHost.enter clusterId roster k) := by
  refine ready_quiet rfl (quiet_ordain clusterId) fun _ _ => ready_change rfl fun _ _ => ?_
  refine ready_merge roster (ready_persist (ready_reconcileConnections (ready_pushOwn ?_)))
  exact hk _

theorem ready_adopt (clusterId : String) (roster : List WireRecord) {k : JoinResponse → PersistThread}
    (hk : ∀ answer, Ready False (k answer)) : Ready False (persistHost.adopt clusterId roster k) := by
  refine ready_read fun m _ => ?_
  split
  · exact ready_enter clusterId roster hk
  · split
    · exact ready_enter clusterId roster hk
    · exact ready_leaveOld _ (ready_enter clusterId roster hk)

theorem ready_handleJoin (body : JoinRequest) {k : JoinResponse → PersistThread} (hk : ∀ answer, Ready False (k answer)) :
    Ready False (persistHost.handleJoin body k) := by
  refine ready_read fun m _ => ?_
  split
  · exact hk _
  · split
    · exact hk _
    · exact ready_adopt _ _ hk

theorem ready_handleEvictSelf (fromNode : String) (token : Option String) (hk : Ready False k) :
    Ready False (persistHost.handleEvictSelf fromNode token k) := by
  refine ready_read fun m _ => ?_
  split
  · exact hk
  · refine ready_change rfl fun _ _ => ready_quiet rfl (quiet_disconnect fromNode) fun _ _ => ?_
    exact ready_persist (ready_pushRecords _ hk)

theorem ready_handleEvicted (fromNode : String) (token : Option String) (hk : Ready False k) :
    Ready False (persistHost.handleEvicted fromNode token k) := by
  refine ready_read fun m _ => ?_
  split
  · exact hk
  · exact ready_becomeStandalone hk

theorem ready_serveSetSync (fromNode : String) (records : List WireRecord) (token : Option String) (hk : Ready False k) :
    Ready False (persistHost.serveSetSync fromNode records token k) := by
  refine ready_read fun m _ => ?_
  split
  · exact hk
  · exact ready_merge records hk

theorem ready_addMembers (cid : String) (roster : List WireRecord) (token : Option String)
    {k : List AddResult → PersistThread} (hk : ∀ results, Ready True (k results)) (members : List Member) :
    ∀ results, Ready True (persistHost.addMembers cid roster token members results k) := by
  induction members with
  | nil => exact hk
  | cons member rest ih =>
    intro results
    unfold Host.addMembers
    split
    · exact ih _
    · refine ready_join fun answer => ?_
      split
      · exact ih _
      · exact ih _
      · exact ready_change rfl fun _ _ => ih _

theorem ready_setAdd (members : List Member) (token : Option String) (newId : String)
    {k : Option String → List AddResult → PersistThread} (hk : ∀ cid results, Ready False (k cid results)) :
    Ready False (persistHost.setAdd members token newId k) := by
  refine ready_change rfl fun m now => ready_addMembers _ _ token (fun results => ?_) members []
  refine ready_persist (ready_reconcileConnections (ready_read fun m _ => ?_))
  exact ready_pushRecords _ (ready_read fun m _ => hk _ _)

theorem ready_removeMembers {k : List Bool → List WireRecord → PersistThread} (hk : ∀ results tombs, Ready True (k results tombs))
    (members : List Member) : ∀ results tombs, Ready True (persistHost.removeMembers members results tombs k) := by
  induction members with
  | nil => exact hk
  | cons member rest ih =>
    intro results tombs
    unfold Host.removeMembers
    split
    · exact ih _ _
    · refine ready_change rfl fun m now => ready_read fun _ _ => ready_tell ?_
      exact ready_quiet rfl (quiet_disconnect member.nodeId) fun _ _ => ih _ _

theorem ready_setRemove (members : List Member) {k : List Bool → PersistThread} (hk : ∀ results, Ready False (k results)) :
    Ready False (persistHost.setRemove members k) := by
  refine (ready_removeMembers (fun results tombs => ready_persist ?_) members [] []).rest
  split
  · exact hk results
  · exact ready_pushRecords tombs (hk results)

/-- **Every call makes up for what it does to the roster.** -/
theorem ready_thread (call : RosterCall) : Ready False call.thread := by
  cases call with
  | merge records => exact ready_merge records ready_done
  | setAdd members token newId => exact ready_setAdd members token newId fun _ _ => ready_done
  | setRemove members => exact ready_setRemove members fun _ => ready_done
  | adopt clusterId roster => exact ready_adopt clusterId roster fun _ => ready_done
  | handleEvictSelf fromNode token => exact ready_handleEvictSelf fromNode token ready_done
  | becomeStandalone => exact ready_becomeStandalone ready_done
  | handleJoin body => exact ready_handleJoin body fun _ => ready_done
  | handleEvicted fromNode token => exact ready_handleEvicted fromNode token ready_done
  | serveSetSync fromNode records token => exact ready_serveSetSync fromNode records token ready_done
  | reconcileConnections => exact ready_reconcileConnections ready_done
  | data op => exact ⟨⟨trivial, fun _ _ => trivial⟩, False.elim⟩

/-! ## The invariant -/

/-- A step other than those of `_persist` leaves the three fields alone, and what it saves
is what they are. -/
structure Leaves (m m' : MembershipStore) : Prop where
  node : m'.nodeId = m.nodeId
  state : m'.store.state.membership = m.store.state.membership
  saved : m'.store.saved = m.store.saved ∨ m'.store.saved = m'.store.state

theorem leaves_data (m : MembershipStore) (now : Now) (op : Operation) : Leaves m { m with store := m.store.exec now op } := by
  have hs := m.store.saves_exec now op
  exact ⟨hs.node, Snapshot.mk.injEq .. ▸ ⟨hs.clusterId, hs.lastRoster, hs.myMembershipVersion⟩, hs.saved.symm⟩

theorem leaves_act (m : MembershipStore) (i : Input) (hs : s ≠ .persist) : Leaves m (m.act i s) := by
  cases s with
  | persist => exact absurd rfl hs
  | form newId =>
    simp only [MembershipStore.act, MembershipStore.form]
    split <;> exact ⟨rfl, rfl, .inl rfl⟩
  | own =>
    simp only [MembershipStore.act, MembershipStore.myRecord]
    split <;> exact ⟨rfl, rfl, .inl rfl⟩
  | connect address => exact leaves_data m i.now (.connectPeer address [] none i.peers)
  | read | mint | ordain | assign | bury | release | merge | clear | forget | disconnect | collect =>
    exact ⟨rfl, rfl, .inl rfl⟩

theorem persistSnapshot_own {m : MembershipStore} (h : (m.roster.get? m.nodeId).isSome) (i : Input) : m.act i .own = m := by
  obtain ⟨own, hown⟩ := Option.isSome_iff_exists.mp h
  simp [MembershipStore.act, MembershipStore.myRecord, hown]

theorem agrees_own (m : MembershipStore) (i : Input) (hpart : part ≠ .myMembershipVersion) :
    (m.act i .own).persistSnapshot.Agrees part m.persistSnapshot := by
  cases hown : m.roster.get? m.nodeId with
  | some own =>
    rw [persistSnapshot_own (by simp [hown])]
    exact Snapshot.agrees_of_eq rfl
  | none =>
    let own : MembershipRecord :=
      { nodeId := m.nodeId, clusterId := none, address := m.store.advertise, version := (m.store.nextVersion i.now).1 }
    have hact : m.act i .own = { store := (m.store.nextVersion i.now).2, roster := m.roster.insert own } := by
      simp only [MembershipStore.act, MembershipStore.myRecord, hown]
      rfl
    have hrows : (m.roster.insert own).rows = m.roster.rows ++ [own] := by
      rw [Table.rows_insert, if_neg]
      simpa using Table.get?_eq_none.mp hown
    have hfiled : (m.roster.insert own).get? m.nodeId = some own := Table.get?_insert_self m.roster own
    have hnode : MembershipStore.nodeId { store := (m.store.nextVersion i.now).2, roster := m.roster.insert own } = m.nodeId := rfl
    rw [hact]
    cases part with
    | myMembershipVersion => exact absurd rfl hpart
    | clusterId => simp only [Snapshot.Agrees, MembershipStore.persistSnapshot, hnode, hfiled, hown]; rfl
    | lastRoster =>
      simp only [Snapshot.Agrees, MembershipStore.persistSnapshot, hnode, hfiled, hown, hrows]
      rw [List.filter_append, List.filter_cons_of_neg (by simp [own]), List.filter_nil, List.append_nil]
      rfl

namespace Persisting

/-- Every field agrees with the roster or has still to be written, and what is in the state
file agrees with the state or has still to be saved. -/
structure Recorded (p : Persisting) : Prop where
  node : p.state.store.saved.nodeId = p.state.nodeId
  threads : ∀ t ∈ p.threads, t.Throughout Due
  state : ∀ part, p.state.store.state.membership.Agrees part p.state.persistSnapshot ∨ p.Owed (RosterMove.assigns part)
  saved : p.state.store.saved.membership = p.state.store.state.membership ∨ p.Owed RosterMove.saves

theorem recorded_start {m : MembershipStore} (h : m.AtRest) : Recorded { state := m, threads := [] } where
  node := h.node
  threads := fun _ ht => nomatch ht
  state := fun _ => .inl (Snapshot.agrees_of_eq h.state)
  saved := .inl (h.file.trans h.state.symm)

theorem Recorded.call {p : Persisting} (h : p.Recorded) (call : RosterCall) : (p.step (.call call)).Recorded := by
  refine ⟨h.node, fun t ht => ?_, fun part => (h.state part).imp_right fun ho => ho.spawn _, h.saved.imp_right fun ho => ho.spawn _⟩
  rcases List.mem_append.mp ht with ht | ht
  · exact h.threads t ht
  · obtain rfl := List.mem_singleton.mp ht
    exact (ready_thread call).due

variable {p : Persisting} {n : ℕ} {e : RosterMove} {next : MembershipStore → Reply → PersistThread} {r : Reply}

theorem Recorded.state_step (h : p.Recorded) (hn : p.threads[n]? = some (.step e next)) (hdue : Due e next)
    (hstep : p.step (.go n r) = { state := p.state.exec r e, threads := p.threads.set n (next p.state r) })
    (htimely : p.Timely (.go n r)) (part : Part) :
    (p.state.exec r e).store.state.membership.Agrees part (p.state.exec r e).persistSnapshot ∨
      (p.step (.go n r)).Owed (RosterMove.assigns part) := by
  have hpending : p.pending n = some e := by rw [Pool.pending, hn]
  simp only [Timely, hpending] at htimely
  have hlasts : ¬ RosterMove.assigns part e → p.Owed (RosterMove.assigns part) → (p.step (.go n r)).Owed (RosterMove.assigns part) :=
    fun he ho => hstep ▸ Pool.Owed.set ho hn he p.state r
  -- neither the field nor what the roster gives for it has changed
  have hkeeps : ¬ RosterMove.assigns part e →
      (p.state.exec r e).store.state.membership.Agrees part p.state.store.state.membership →
      p.state.persistSnapshot.Agrees part (p.state.exec r e).persistSnapshot →
      (p.state.exec r e).store.state.membership.Agrees part (p.state.exec r e).persistSnapshot ∨
        (p.step (.go n r)).Owed (RosterMove.assigns part) := fun he hfield hroster =>
    (h.state part).imp (fun hold => (hfield.trans hold).trans hroster) (hlasts he)
  cases e with
  | snapshot | save => exact hkeeps (fun ⟨_, h⟩ => nomatch h) (Snapshot.agrees_of_eq rfl) (Snapshot.agrees_of_eq rfl)
  | data op =>
    refine hkeeps (fun ⟨_, h⟩ => nomatch h) (Snapshot.agrees_of_eq (leaves_data p.state r.now op).state) ?_
    have hnode : (p.state.exec r (.data op)).nodeId = p.state.nodeId := (p.state.store.saves_exec r.now op).node
    have hroster : (p.state.exec r (.data op)).roster = p.state.roster := rfl
    exact Snapshot.agrees_of_eq (persistSnapshot_congr hroster hnode).symm
  | assign snapshot part' =>
    have hnode : (p.state.exec r (.assign snapshot part')).nodeId = p.state.nodeId := by cases part' <;> rfl
    have hrows : (p.state.exec r (.assign snapshot part')).roster = p.state.roster := rfl
    have hroster := (persistSnapshot_congr hrows hnode).symm
    rcases eq_or_ne part' part with rfl | hne
    · refine htimely.imp_left fun hfresh => ?_
      exact (p.state.store.state.put_agrees snapshot part').trans (hfresh.trans (Snapshot.agrees_of_eq hroster))
    · refine hkeeps ?_ (p.state.store.state.put_agrees_of_ne snapshot hne) (Snapshot.agrees_of_eq hroster)
      rintro ⟨_, h⟩
      cases h
      exact hne rfl
  | sec s =>
    have hno : ¬ RosterMove.assigns part (.sec s) := fun ⟨_, h⟩ => nomatch h
    rcases due_sec hdue with rfl | ⟨hpersist, hdue⟩
    · have hfield := @Snapshot.agrees_of_eq part _ _ (leaves_act p.state r.toInput (s := .own) nofun).state
      rcases eq_or_ne part .myMembershipVersion with rfl | hpart
      · rcases htimely with hfound | howed
        · refine hkeeps hno hfield (Snapshot.agrees_of_eq ?_)
          exact congrArg MembershipStore.persistSnapshot (persistSnapshot_own hfound r.toInput).symm
        · exact .inr howed
      · exact hkeeps hno hfield (agrees_own p.state r.toInput hpart).symm
    · have hfield := @Snapshot.agrees_of_eq part _ _ (leaves_act p.state r.toInput hpersist).state
      rcases hdue p.state r part with hquiet | howes
      · exact hkeeps hno hfield hquiet.symm
      · exact .inr (hstep ▸ Pool.owed_of_next hn howes)

theorem Recorded.saved_step (h : p.Recorded) (hn : p.threads[n]? = some (.step e next)) (hdue : Due e next)
    (hstep : p.step (.go n r) = { state := p.state.exec r e, threads := p.threads.set n (next p.state r) }) :
    (p.state.exec r e).store.saved.membership = (p.state.exec r e).store.state.membership ∨
      (p.step (.go n r)).Owed RosterMove.saves := by
  have hleaves : e ≠ .save → Leaves p.state (p.state.exec r e) →
      (p.state.exec r e).store.saved.membership = (p.state.exec r e).store.state.membership ∨
        (p.step (.go n r)).Owed RosterMove.saves := by
    intro he hl
    rcases h.saved with hold | ho
    · rcases hl.saved with hsaved | hsaved
      · exact .inl ((congrArg ClusterState.membership hsaved).trans (hold.trans hl.state.symm))
      · exact .inl (congrArg ClusterState.membership hsaved)
    · exact .inr (hstep ▸ Pool.Owed.set ho hn he p.state r)
  cases e with
  | save => exact .inl rfl
  | snapshot => exact hleaves nofun ⟨rfl, rfl, .inl rfl⟩
  | data op => exact hleaves nofun (leaves_data p.state r.now op)
  | assign snapshot part => exact .inr (hstep ▸ Pool.owed_of_next hn (hdue p.state r))
  | sec s =>
    rcases due_sec hdue with rfl | ⟨hpersist, -⟩
    · exact hleaves nofun (leaves_act p.state r.toInput (s := .own) nofun)
    · exact hleaves nofun (leaves_act p.state r.toInput hpersist)

theorem Recorded.node_step (h : p.Recorded) (hdue : Due e next) :
    (p.state.exec r e).store.saved.nodeId = (p.state.exec r e).nodeId := by
  have hleaves : Leaves p.state (p.state.exec r e) →
      (p.state.exec r e).store.saved.nodeId = (p.state.exec r e).nodeId := by
    intro hl
    rcases hl.saved with hsaved | hsaved
    · exact (congrArg ClusterState.nodeId hsaved).trans (h.node.trans hl.node.symm)
    · exact congrArg ClusterState.nodeId hsaved
  cases e with
  | save => rfl
  | snapshot => exact h.node
  | data op => exact hleaves (leaves_data p.state r.now op)
  | assign snapshot part => exact h.node.trans (by cases part <;> rfl)
  | sec s =>
    rcases due_sec hdue with rfl | ⟨hpersist, -⟩
    · exact hleaves (leaves_act p.state r.toInput (s := .own) nofun)
    · exact hleaves (leaves_act p.state r.toInput hpersist)

/-- **One step keeps the invariant.** -/
theorem Recorded.step (h : p.Recorded) {ev : PersistEvent} (htimely : p.Timely ev) : (p.step ev).Recorded := by
  cases ev with
  | call call => exact h.call call
  | go n r =>
    rcases Pool.step_cases MembershipStore.exec p (n, r) with ⟨e, next, hn, -, hstep⟩ | ⟨-, hstep⟩
    · have hstep' : p.step (.go n r) = { state := p.state.exec r e, threads := p.threads.set n (next p.state r) } := hstep
      obtain ⟨hdue, hrest⟩ := h.threads _ (List.mem_of_getElem? hn)
      have hstate : (p.step (.go n r)).state = p.state.exec r e := congrArg Pool.state hstep'
      refine ⟨?_, fun t ht => ?_, fun part => ?_, ?_⟩
      · rw [hstate]
        exact h.node_step hdue
      · rw [hstep'] at ht
        rcases List.mem_or_eq_of_mem_set ht with ht | rfl
        · exact h.threads t ht
        · exact hrest p.state r
      · rw [hstate]
        exact h.state_step hn hdue hstep' htimely part
      · rw [hstate]
        exact h.saved_step hn hdue hstep'
    · have hsame : p.step (.go n r) = p := hstep
      rw [hsame]
      exact h

theorem Recorded.persisted (h : p.Recorded) (hidle : p.Idle) : p.state.Persisted := by
  refine Snapshot.ext_of_agrees fun part => ?_
  have hsaved := h.saved.resolve_right (Pool.not_owed_of_finished hidle)
  have hstate := (h.state part).resolve_right (Pool.not_owed_of_finished hidle)
  exact (Snapshot.agrees_of_eq hsaved).trans hstate

end Persisting

/-! ## After a restart -/

namespace MembershipStore

theorem get?_remember_mem {own cid : String} {rec : MembershipRecord} (rows : List MembershipRecord) :
    (rows.map MembershipRecord.nodeId).Nodup → rec ∈ rows → rec.nodeId ≠ own →
      ∀ {roster : Table MembershipRecord.nodeId}, roster.get? rec.nodeId = none →
        ((rows.map MembershipRecord.toDict).foldl (remember own cid) roster).get? rec.nodeId = some rec := by
  induction rows with
  | nil => exact fun _ h => nomatch h
  | cons r rows ih =>
    intro hnodup hmem hne roster hnone
    obtain ⟨hr, hrest⟩ := List.nodup_cons.mp hnodup
    rw [List.map_cons, List.foldl_cons]
    rcases List.mem_cons.mp hmem with rfl | hmem
    · apply get?_remember
      have hnew : remember own cid roster rec.toDict = roster.insert rec := by
        simp [remember, restored, MembershipRecord.toDict, hne, hnone]
      rw [hnew, Table.get?_insert_self]
    · refine ih hrest hmem hne ?_
      have hother : r.nodeId ≠ rec.nodeId := fun h => hr (h ▸ List.mem_map_of_mem hmem)
      simp only [remember, restored, MembershipRecord.toDict]
      split
      · exact hnone
      · rw [Table.get?_insert_of_ne hother, hnone]

variable {m : MembershipStore} (registry : Option RegistryService) (now : Now)

theorem reopen_of_some {cid : String} (h : m.store.saved.clusterId = some cid) :
    ∃ store version, m.reopen registry now = rejoin store now cid version ∧ store.nodeId = m.store.saved.nodeId ∧
      store.state.lastRoster = m.store.saved.lastRoster ∧ store.config = m.store.config := by
  simp only [reopen, initFromState, h]
  refine ⟨_, _, rfl, ?_⟩
  simp only [restoredVersion]
  split <;> exact ⟨rfl, rfl, rfl⟩

theorem Persisted.clusterId_reopen (h : m.Persisted) : (m.reopen registry now).clusterId = m.clusterId := by
  have hcid : m.store.saved.clusterId = m.clusterId := congrArg Snapshot.clusterId h
  cases hm : m.clusterId with
  | none => simp [reopen, initFromState, hcid.trans hm, clusterId]
  | some cid =>
    obtain ⟨store, version, hreopen, -⟩ := reopen_of_some registry now (hcid.trans hm)
    rw [hreopen, clusterId]
    exact congrArg (Option.bind · MembershipRecord.clusterId) (rejoin_own store now cid version)

theorem Persisted.get?_reopen (h : m.Persisted) (hnode : m.store.saved.nodeId = m.nodeId) {cid : String}
    (hcid : m.clusterId = some cid) {rec : MembershipRecord} (hrec : rec ∈ m.roster.rows) (hother : rec.nodeId ≠ m.nodeId)
    (hmember : rec.clusterId = some cid)
    (hkept : (rec.removed && ClusterStore.expired m.store.config now rec.version.ms) = false) :
    (m.reopen registry now).roster.get? rec.nodeId = some rec := by
  have hsaved : m.store.saved.clusterId = m.clusterId := congrArg Snapshot.clusterId h
  obtain ⟨store, version, hreopen, hstore, hlast, hconfig⟩ := reopen_of_some registry now (hsaved.trans hcid)
  have hrows : store.state.lastRoster =
      (m.roster.rows.filter fun r => r.nodeId ≠ m.nodeId && r.clusterId = m.clusterId).map MembershipRecord.toDict :=
    hlast.trans (congrArg Snapshot.lastRoster h)
  have hmem : rec ∈ m.roster.rows.filter fun r => r.nodeId ≠ m.nodeId && r.clusterId = m.clusterId :=
    List.mem_filter.mpr ⟨hrec, by simp [hother, hmember, hcid]⟩
  have hne : rec.nodeId ≠ store.nodeId := by rwa [hstore, hnode]
  rw [hreopen, rejoin, gcMembership]
  dsimp only
  rw [Table.get?_filter, hrows, get?_remember_mem _ (m.roster.nodup.sublist (List.filter_sublist.map _)) hmem hne]
  · rw [Option.filter_some, hconfig, hkept]
    rfl
  · exact Table.get?_insert_of_ne (Ne.symm hne)

end MembershipStore

/-! ## The state file after concurrent operations -/

/-- The state file has what the roster gives, so a restart is in the cluster that the node
is in, and remembers the removals that are within the retention window. -/
structure MembershipStore.KeepsLast (m : MembershipStore) : Prop where
  file : m.Persisted
  cluster : ∀ registry now, (m.reopen registry now).clusterId = m.clusterId
  removals : ∀ registry now, ∀ rec ∈ m.roster.rows, rec.removed = true → rec.nodeId ≠ m.nodeId → rec.clusterId.isSome →
    rec.clusterId = m.clusterId → ClusterStore.expired m.store.config now rec.version.ms = false →
    (m.reopen registry now).roster.get? rec.nodeId = some rec

theorem MembershipStore.Persisted.keepsLast {m : MembershipStore} (h : m.Persisted)
    (hnode : m.store.saved.nodeId = m.nodeId) : m.KeepsLast where
  file := h
  cluster := fun registry now => h.clusterId_reopen registry now
  removals := by
    intro registry now rec hrec _ hother hsome hcid hfresh
    obtain ⟨cid, hmember⟩ := Option.isSome_iff_exists.mp hsome
    exact h.get?_reopen registry now hnode (hcid.symm.trans hmember) hrec hother hmember (by simp [hfresh])

namespace Persisting

/-- Every snapshot is assigned while it is what the roster gives, and every `my_record`
finds a record. -/
def Current (p : Persisting) : PersistEvent → Prop
  | .call _ => True
  | .go thread _ => match p.pending thread with
    | some (.assign snapshot part) => snapshot.Agrees part p.state.persistSnapshot
    | some (.sec .own) => (p.state.roster.get? p.state.nodeId).isSome
    | _ => True

instance (p : Persisting) (ev : PersistEvent) : Decidable (p.Current ev) := by
  unfold Current
  repeat' split
  all_goals infer_instance

theorem Current.timely {p : Persisting} {ev : PersistEvent} (h : p.Current ev) : p.Timely ev := by
  cases ev with
  | call call => trivial
  | go n r =>
    simp only [Current] at h
    simp only [Timely]
    split at h
    · exact .inl h
    · exact .inl h
    · trivial

theorem timely_of_current {p : Persisting} {events : List PersistEvent} (h : Along step Current p events) :
    Along step Timely p events :=
  h.imp (I := fun _ => True) trivial (fun _ _ _ _ => trivial) fun _ _ _ hev => hev.timely

end Persisting

/-! ### Samples -/

/-- A node that is in no cluster yet. -/
def freshNode (nodeId : String) : MembershipStore := { store := { state := { nodeId } } }

theorem atRest_freshNode (nodeId : String) : (freshNode nodeId).AtRest := ⟨rfl, rfl, rfl⟩

/-- Nobody answers. -/
def unreachable : Transport Unit where
  openSession _ _ r := (.error .transportError, r)
  merkle _ _ _ _ r := (.error .transportError, r)
  digest _ _ _ _ _ r := (.error .transportError, r)
  pull _ _ _ _ r := (.error .transportError, r)
  updates _ _ _ _ r := (.error .transportError, r)

def goes (thread steps : ℕ) : List PersistEvent :=
  List.replicate steps (.go thread { now := ⟨0, 100⟩, peers := unreachable, answer := .error .transportError })

end AgentProtocol
