-- SUMMARY: Runs of one node with crashes: what it has sent of its own versions is covered by the clock in its state file, unless it forms a cluster while adding members or loses its record while joining.
import AgentProtocol.Lib.Thread
import AgentProtocol.Cluster.Control
import AgentProtocol.Cluster.Integrity

/-!
# The clock is written ahead

A version that a node has sent must not be minted again after a crash, so the clock in
`cluster_state.json` has to be at least as late as every version that left the node.

The operations run with a ledger of the node's own versions that were sent and of the
versions that were stamped on its records. Between any two sections the process may stop,
and the node starts again from the state file.
-/

namespace AgentProtocol

open Lib

/-! ## The ledger -/

/-- A node with the record of what it has sent and stamped, in order. -/
structure Ledger where
  node : MembershipStore
  /-- Versions with this node's stamp, or of its own service records. -/
  sent : List Version := []
  stamps : List (LocalKey × Version) := []

/-- What a thread of the node does next. -/
inductive Act where
  | sec (s : Section)
  | data (op : Operation)
  | nextVersionAfter (floorMs : ℤ)
  | observeVersion (ms : ℤ)
  | send (versions : List Version)
  /-- A `join` goes out and its answer comes back. -/
  | ask (versions : List Version)

def ClusterStore.stampsBy (s : ClusterStore) (now : Now) : Operation → List (LocalKey × Version)
  | .onLocalMutation dataset sid _ => [(makeKey dataset sid, s.freshVersion now)]
  | op => (s.exec now op).state.localVersions.rows.filter fun p => p ∉ s.state.localVersions.rows

def wireVersions (records : List WireRecord) : List Version :=
  (records.filterMap WireRecord.fromDict).map (·.version)

def Message.versions : Message → List Version
  | .sync _ records _ => wireVersions records
  | .evict .. => []
  | .evictSelf .. => []

namespace Ledger

def clock (l : Ledger) : ℤ := l.node.store.state.versionClock

/-- The clock in the state file. -/
def savedClock (l : Ledger) : ℤ := l.node.store.saved.versionClock

/-- An operation of the data plane. -/
def record (l : Ledger) (now : Now) (op : Operation) : Ledger where
  node := { l.node with store := l.node.store.exec now op }
  sent := l.sent ++ l.node.store.emitted now op
  stamps := l.stamps ++ l.node.store.stampsBy now op

def perform (l : Ledger) (r : Reply) : Act → Ledger
  | .sec (.connect address) => l.record r.now (.connectPeer address [] none r.peers)
  | .sec (.disconnect node) => l.record r.now (.disconnectPeer node)
  | .sec s => { l with node := l.node.act r.toInput s }
  | .data op => l.record r.now op
  | .nextVersionAfter floorMs =>
    { l with node := { l.node with store := (l.node.store.nextVersionAfter r.now floorMs).2 } }
  | .observeVersion ms => { l with node := { l.node with store := l.node.store.observeVersion ms } }
  | .send versions => { l with sent := l.sent ++ versions.filter fun v => v.node = l.node.nodeId }
  | .ask versions => { l with sent := l.sent ++ versions.filter fun v => v.node = l.node.nodeId }

theorem perform_node (l : Ledger) (r : Reply) (s : Section) : (l.perform r (.sec s)).node = l.node.act r.toInput s := by
  cases s <;> rfl

/-- What the process starts from after a crash. The registry is whatever the registry's
own files give. -/
def rebooted (l : Ledger) (registry : Option RegistryService) : ClusterStore where
  state := l.node.store.saved
  config := l.node.store.config
  registry := registry
  advertise := l.node.store.advertise
  authStore := l.node.store.authStore

/-- The process stops, and starts again from the state file. -/
def restart (l : Ledger) (now : Now) (registry : Option RegistryService) : Ledger :=
  { l with node := .initFromState (l.rebooted registry) now }

end Ledger

/-! ## Runs -/

abbrev LedgerThread := Thread Ledger Reply Act

def ledgerHost : Host LedgerThread where
  atomic s k := .step (.sec s) fun l r => k l.node r.now
  join _ body k := .step (.ask (wireVersions body.roster)) fun _ r => k r.answer
  tell msg k := .step (.send msg.versions) fun _ _ => k

/-- What a node is asked to do, the data plane and the bare uses of the clock included. -/
inductive Job where
  | control (command : Command)
  | data (op : Operation)
  | setDigest (fromNode : String) (token : Option String)
  | setPull (fromNode : String) (nodeIds : List String) (token : Option String)
  | nextVersion
  | nextVersionAfter (floorMs : ℤ)
  | observeVersion (ms : ℤ)

def sendAnswer : JoinResponse → LedgerThread
  | .rejected _ => .done
  | .accepted _ _ version => .step (.send [version]) fun _ _ => .done

def Job.thread : Job → LedgerThread
  | .control command => ledgerHost.serve command sendAnswer .done
  | .data op => .step (.data op) fun _ _ => .done
  | .setDigest fromNode token => ledgerHost.atomic .read fun m _ =>
      .step (.send ((m.serveSetDigest fromNode token).map (·.2))) fun _ _ => .done
  | .setPull fromNode nodeIds token => ledgerHost.atomic .read fun m _ =>
      .step (.send (wireVersions (m.serveSetPull fromNode nodeIds token))) fun _ _ => .done
  | .nextVersion => .step (.sec .mint) fun _ _ => .done
  | .nextVersionAfter floorMs => .step (.nextVersionAfter floorMs) fun _ _ => .done
  | .observeVersion ms => .step (.observeVersion ms) fun _ _ => .done

abbrev Machine := Pool Ledger Reply Act

inductive Occurrence where
  | call (job : Job)
  | go (thread : ℕ) (r : Reply)
  | crash (now : Now) (registry : Option RegistryService)

namespace Machine

def step (p : Machine) : Occurrence → Machine
  | .call job => { p with threads := p.threads.filter (fun t => !t.finished) ++ [job.thread] }
  | .go thread r => Pool.step Ledger.perform p (thread, r)
  | .crash now registry => { state := p.state.restart now registry, threads := [] }

/-- A fresh node, after `cluster init`. -/
def init (nodeId : String) (config : ClusterConfig) (registry : Option RegistryService) (advertise : String)
    (authStore : Option AuthStore) : Machine where
  state := { node := { store := { state := { nodeId }, config, registry, advertise, authStore } } }
  threads := []

end Machine

/-! ## What is assumed of the environment -/

namespace Ledger

/-- Versions with this node's stamp that come from outside are ones that it has sent. -/
def Echoes (l : Ledger) (versions : List Version) : Prop := ∀ v ∈ versions, v.node = l.node.nodeId → v ∈ l.sent

def answered : Except RpcError JoinResponse → List Version
  | .ok (.accepted _ _ version) => [version]
  | _ => []

/-- What holds of an input: answers echo, and `my_record` finds a record. -/
def Given (l : Ledger) (r : Reply) : Act → Prop
  | .ask _ => l.Echoes (answered r.answer)
  | .sec .own => (l.node.roster.get? l.node.nodeId).isSome
  | _ => True

/-- What holds when a command is called: members are added by a node that is in a cluster,
and what peers bring along echoes. -/
def Permits (l : Ledger) : Command → Prop
  | .setAdd members _ _ => l.node.clusterId.isSome ∨ ∀ member ∈ members, member.address = ""
  | .join body => l.Echoes (wireVersions body.roster)
  | .setSync _ records _ => l.Echoes (wireVersions records)
  | .merge records => l.Echoes (wireVersions records)
  | _ => True

end Ledger

/-- One operation at a time, each within what is assumed. -/
def Machine.Orderly (p : Machine) : Occurrence → Prop
  | .call (.control command) => (∀ t ∈ p.threads, t.finished = true) ∧ p.state.Permits command
  | .call _ => ∀ t ∈ p.threads, t.finished = true
  | .go thread r => ∀ e ∈ p.pending thread, p.state.Given r e
  | .crash _ _ => True

namespace Ledger

instance (l : Ledger) (versions : List Version) : Decidable (l.Echoes versions) :=
  inferInstanceAs (Decidable (∀ v ∈ versions, v.node = l.node.nodeId → v ∈ l.sent))

instance (l : Ledger) (r : Reply) (e : Act) : Decidable (l.Given r e) := by
  unfold Given
  split <;> infer_instance

instance (l : Ledger) (command : Command) : Decidable (l.Permits command) := by
  unfold Permits
  split <;> infer_instance

end Ledger

instance (p : Machine) (e : Occurrence) : Decidable (p.Orderly e) := by
  unfold Machine.Orderly
  split <;> infer_instance

/-! ## The invariant -/

/-- What a state file promises of the node's own versions: they are within its clock `c`. -/
structure Covered (node : String) (c : ℤ) (st : ClusterState) : Prop where
  versions : ∀ k v, st.localVersions.lookup k = some v → v.ms ≤ c
  tombs : ∀ k t, st.tombstones.lookup k = some t → t.version.ms ≤ c
  roster : ∀ v ∈ wireVersions st.lastRoster, v.node = node → v.ms ≤ c
  mine : ∀ v, st.myMembershipVersion = some v → v.node = node → v.ms ≤ c
  member : st.clusterId.isSome → st.myMembershipVersion.isSome

theorem Covered.mono {node : String} {c c' : ℤ} {st : ClusterState} (h : Covered node c st) (hle : c ≤ c') :
    Covered node c' st where
  versions k v hv := (h.versions k v hv).trans hle
  tombs k t ht := (h.tombs k t ht).trans hle
  roster v hv hn := (h.roster v hv hn).trans hle
  mine v hv hn := (h.mine v hv hn).trans hle
  member := h.member

namespace Ledger

/-- The state file covers what it holds, what memory holds of it, and what was sent and
stamped. -/
structure Ahead (l : Ledger) : Prop where
  node : l.node.store.saved.nodeId = l.node.store.nodeId
  clock : l.savedClock ≤ l.clock
  noSelf : l.node.store.NoSelf
  state : Covered l.node.nodeId l.savedClock l.node.store.state
  saved : Covered l.node.nodeId l.savedClock l.node.store.saved
  sent : ∀ v ∈ l.sent, v.ms ≤ l.savedClock
  stamped : ∀ p ∈ l.stamps, p.2.ms ≤ l.savedClock
  increasing : l.stamps.Pairwise fun p q => p.1 = q.1 → p.2 < q.2

/-- The roster's versions with this node's stamp are within `c`. -/
def Within (m : MembershipStore) (c : ℤ) : Prop :=
  ∀ node rec, m.roster.get? node = some rec → rec.version.node = m.nodeId → rec.version.ms ≤ c

/-- Within an operation: the roster may be ahead of the state file, but not of the clock. -/
structure Bounded (n : String) (c : ℤ) (l : Ledger) : Prop where
  ahead : l.Ahead
  nodeId : l.node.nodeId = n
  bound : c ≤ l.clock
  roster : Within l.node l.clock

/-- Between operations: the state file covers the roster. -/
structure Settled (n : String) (c : ℤ) (l : Ledger) : Prop where
  ahead : l.Ahead
  nodeId : l.node.nodeId = n
  bound : c ≤ l.savedClock
  roster : Within l.node l.savedClock

variable {m : MembershipStore}

theorem Within.mono {c c' : ℤ} (h : Within m c) (hle : c ≤ c') : Within m c' :=
  fun node rec hrec hn => (h node rec hrec hn).trans hle

variable {n : String} {c : ℤ} {l : Ledger}

theorem Settled.bounded (h : l.Settled n c) : l.Bounded n c :=
  ⟨h.ahead, h.nodeId, h.bound.trans h.ahead.clock, h.roster.mono h.ahead.clock⟩

theorem Settled.weaken {c' : ℤ} (h : l.Settled n c) (hle : c' ≤ c) : l.Settled n c' :=
  ⟨h.ahead, h.nodeId, hle.trans h.bound, h.roster⟩

/-! ## The data plane -/

theorem stampsBy_fresh {s : ClusterStore} {now : Now} {op : Operation} {p : LocalKey × Version}
    (hp : p ∈ s.stampsBy now op) : s.state.versionClock < p.2.ms ∧
      (s.exec now op).saved = (s.exec now op).state ∧ p.2.ms ≤ (s.exec now op).state.versionClock := by
  unfold ClusterStore.stampsBy at hp
  split at hp
  · rename_i dataset sid kind
    obtain rfl := List.mem_singleton.mp hp
    refine ⟨s.lt_nextTs now, rfl, ?_⟩
    simp only [ClusterStore.exec, ClusterStore.onLocalMutation, ClusterStore.stampMutation_clock]
    exact le_refl _
  · obtain ⟨hnew, hold⟩ := List.mem_filter.mp hp
    rcases (s.saves_exec now op).versions p.1 p.2 (Dict.lookup_eq_some.mpr hnew) with h | ⟨hsaved, hlt, hle⟩
    · exact absurd (Dict.lookup_eq_some.mp h) (by simpa using hold)
    exact ⟨hlt, hsaved, hle⟩

theorem stampsBy_keys (s : ClusterStore) (now : Now) (op : Operation) :
    (s.stampsBy now op).Pairwise fun p q => p.1 = q.1 → p.2 < q.2 := by
  unfold ClusterStore.stampsBy
  split
  · exact List.pairwise_singleton _ _
  · apply List.Pairwise.filter
    apply (List.pairwise_map.mp (s.exec now op).state.localVersions.nodup).imp
    exact fun hne heq => absurd heq hne

theorem Ahead.savedClock_record (h : l.Ahead) (now : Now) (op : Operation) :
    l.savedClock ≤ (l.record now op).savedClock ∧ (l.record now op).savedClock ≤ (l.record now op).clock := by
  have hs := l.node.store.saves_exec now op
  have hclock : l.savedClock ≤ (l.record now op).clock := h.clock.trans hs.clock
  rcases hs.saved with hsaved | hsaved
  · have heq : (l.record now op).savedClock = (l.record now op).clock := congrArg ClusterState.versionClock hsaved
    exact ⟨heq ▸ hclock, heq.le⟩
  · have heq : (l.record now op).savedClock = l.savedClock := congrArg ClusterState.versionClock hsaved
    exact ⟨heq.ge, heq ▸ hclock⟩

theorem Ahead.record (h : l.Ahead) (now : Now) (op : Operation) : (l.record now op).Ahead := by
  have hs := l.node.store.saves_exec now op
  obtain ⟨hmono, hclock⟩ := h.savedClock_record now op
  have hnode : (l.record now op).node.nodeId = l.node.nodeId := hs.node
  -- what is new in the state has been saved with the clock it was stamped by
  have hnew : ∀ {ms : ℤ}, (l.record now op).node.store.saved = (l.record now op).node.store.state →
      ms ≤ (l.record now op).clock → ms ≤ (l.record now op).savedClock := fun hsaved hle =>
    hle.trans (congrArg ClusterState.versionClock hsaved).ge
  have hstate : Covered l.node.nodeId (l.record now op).savedClock (l.record now op).node.store.state := by
    refine ⟨fun k v hv => ?_, fun k t ht => ?_, ?_, ?_, ?_⟩
    · rcases hs.versions k v hv with hold | ⟨hsaved, -, hle⟩
      · exact (h.state.versions k v hold).trans hmono
      · exact hnew hsaved hle
    · rcases hs.tombs k t ht with hold | ⟨hsaved, -, hle⟩
      · exact (h.state.tombs k t hold).trans hmono
      · exact hnew hsaved hle
    · intro v hv hn
      exact (h.state.roster v (hs.lastRoster ▸ hv) hn).trans hmono
    · intro v hv hn
      exact (h.state.mine v (hs.myMembershipVersion ▸ hv) hn).trans hmono
    · intro hcid
      exact hs.myMembershipVersion ▸ h.state.member (hs.clusterId ▸ hcid)
  have hsavedState : Covered l.node.nodeId (l.record now op).savedClock (l.record now op).node.store.saved := by
    rcases hs.saved with hsaved | hsaved
    · exact hsaved ▸ hstate
    · exact hsaved ▸ h.saved.mono hmono
  refine ⟨?_, hclock, ClusterStore.noSelf_exec h.noSelf now op, hnode ▸ hstate, hnode ▸ hsavedState, ?_, ?_, ?_⟩
  · rcases hs.saved with hsaved | hsaved
    · exact congrArg ClusterState.nodeId hsaved
    · exact (congrArg ClusterState.nodeId hsaved).trans (h.node.trans hs.node.symm)
  · intro v hv
    rcases List.mem_append.mp hv with hold | hnew
    · exact (h.sent v hold).trans hmono
    · obtain ⟨k, hk | ⟨t, ht, rfl⟩⟩ := ClusterStore.stamped_of_emitted h.noSelf hnew
      · exact hstate.versions k v hk
      · exact hstate.tombs k t ht
  · intro p hp
    rcases List.mem_append.mp hp with hold | hfresh
    · exact (h.stamped p hold).trans hmono
    · obtain ⟨-, hsaved, hle⟩ := stampsBy_fresh hfresh
      exact hnew hsaved hle
  · refine List.pairwise_append.mpr ⟨h.increasing, stampsBy_keys _ now op, fun p hp q hq _ => ?_⟩
    obtain ⟨hlt, -⟩ := stampsBy_fresh hq
    exact Version.lt_of_ms_lt (((h.stamped p hp).trans h.clock).trans_lt hlt)

/-! ## Sections -/

theorem Ahead.tick (h : l.Ahead) {clock : ℤ} (hle : l.clock ≤ clock) (roster : Table MembershipRecord.nodeId) :
    Ahead { l with node := { store := { l.node.store with state := { l.node.store.state with versionClock := clock } }
                             roster } } where
  node := h.node
  clock := h.clock.trans hle
  noSelf := h.noSelf
  state := ⟨h.state.versions, h.state.tombs, h.state.roster, h.state.mine, h.state.member⟩
  saved := h.saved
  sent := h.sent
  stamped := h.stamped
  increasing := h.increasing

/-- What a section brings into the roster from elsewhere has no stamp of node `n` beyond `c`. -/
def Fine (n : String) (c : ℤ) (s : Section) : Prop :=
  ∀ rec ∈ MembershipStore.brought s, rec.version.node = n → rec.version.ms ≤ c

/-- The section makes up no record, whatever the time. -/
def Steady (m : MembershipStore) (s : Section) : Prop := ∀ now, m.issues now s = []

variable {s : Section}

theorem fine_nothing (h : MembershipStore.brought s = []) : Fine n c s :=
  fun rec hrec => by simp [h] at hrec

theorem fine_merge {records : List WireRecord} (h : ∀ v ∈ wireVersions records, v.node = n → v.ms ≤ c) :
    Fine n c (.merge records) :=
  fun rec hrec => h rec.version (List.mem_map_of_mem hrec)

theorem fine_assign {node clusterId address : String} {version : Version} (h : version.node = n → version.ms ≤ c) :
    Fine n c (.assign node clusterId address version) := by
  intro rec hrec
  obtain rfl := List.mem_singleton.mp hrec
  exact h

theorem within_act {i : Input} {b : ℤ} (h : Within m b) (hb : c ≤ b)
    (hfine : Fine m.nodeId c s) (hissues : ∀ rec ∈ m.issues i.now s, rec.version.ms ≤ b) : Within (m.act i s) b := by
  intro node rec hrec hn
  rw [MembershipStore.act_nodeId] at hn
  rcases MembershipStore.roster_act hrec with hold | hissued | hbrought
  · exact h node rec hold hn
  · exact hissues rec hissued
  · exact (hfine rec hbrought hn).trans hb

theorem mem_wireVersions_rows {rows : List MembershipRecord} {v : Version} :
    v ∈ wireVersions (rows.map MembershipRecord.toDict) ↔ ∃ rec ∈ rows, rec.version = v := by
  have hwire : (rows.map MembershipRecord.toDict).filterMap WireRecord.fromDict = rows := by
    rw [List.filterMap_map]
    exact List.filterMap_some
  simp [wireVersions, hwire]

theorem Within.of_mem (h : Within m c) {rec : MembershipRecord} (hrec : rec ∈ m.roster.rows)
    (hn : rec.version.node = m.nodeId) : rec.version.ms ≤ c :=
  h rec.nodeId rec (Table.get?_eq_some.mpr ⟨hrec, rfl⟩) hn

theorem Bounded.persist (h : l.Bounded n c) (r : Reply) : (l.perform r (.sec .persist)).Settled n c := by
  have hcovered : Covered l.node.nodeId l.clock l.node.persist.store.state := by
    refine ⟨?_, ?_, ?_, ?_, ?_⟩
    · exact fun k v hv => (h.ahead.state.versions k v hv).trans h.ahead.clock
    · exact fun k t ht => (h.ahead.state.tombs k t ht).trans h.ahead.clock
    · intro v hv hn
      obtain ⟨rec, hrec, rfl⟩ := mem_wireVersions_rows.mp hv
      exact h.roster.of_mem (List.mem_filter.mp hrec).1 hn
    · intro v hv hn
      obtain ⟨own, hown, rfl⟩ := Option.map_eq_some_iff.mp hv
      exact h.roster _ own hown hn
    · -- the cluster id and the version come from the same record
      intro hcid
      obtain ⟨cid, hcid⟩ := Option.isSome_iff_exists.mp hcid
      obtain ⟨own, hown, -⟩ := Option.bind_eq_some_iff.mp hcid
      exact Option.isSome_map.trans (Option.isSome_of_eq_some hown)
  refine ⟨⟨rfl, le_refl _, h.ahead.noSelf, hcovered, hcovered, ?_, ?_, h.ahead.increasing⟩, h.nodeId, h.bound, h.roster⟩
  · exact fun v hv => (h.ahead.sent v hv).trans h.ahead.clock
  · exact fun p hp => (h.ahead.stamped p hp).trans h.ahead.clock

section Branches

variable (r : Reply)

theorem perform_form_some {cid : String} (h : l.node.clusterId = some cid) (newId : String) :
    l.perform r (.sec (.form newId)) = l := by
  simp [perform, MembershipStore.act, MembershipStore.form, h]

theorem perform_form_none (h : l.node.clusterId = none) (newId : String) : l.perform r (.sec (.form newId)) = { l with node :=
      { store := (l.node.store.nextVersion r.now).2
        roster := l.node.roster.insert
          { nodeId := l.node.nodeId, clusterId := some newId, address := l.node.store.advertise
            version := (l.node.store.nextVersion r.now).1 } } } := by
  simp [perform, MembershipStore.act, MembershipStore.form, h]

theorem perform_own_some {own : MembershipRecord} (h : l.node.roster.get? l.node.nodeId = some own) :
    l.perform r (.sec .own) = l := by
  simp [perform, MembershipStore.act, MembershipStore.myRecord, h]

theorem perform_own_none (h : l.node.roster.get? l.node.nodeId = none) : l.perform r (.sec .own) = { l with node :=
      { store := (l.node.store.nextVersion r.now).2
        roster := l.node.roster.insert
          { nodeId := l.node.nodeId, clusterId := none, address := l.node.store.advertise
            version := (l.node.store.nextVersion r.now).1 } } } := by
  simp [perform, MembershipStore.act, MembershipStore.myRecord, h]

end Branches

theorem Bounded.sec (h : l.Bounded n c) (r : Reply) (hfine : Fine n c s) : (l.perform r (.sec s)).Bounded n c := by
  have hnode : (l.perform r (.sec s)).node.nodeId = n := by rw [perform_node, MembershipStore.act_nodeId, h.nodeId]
  have hclock : l.clock ≤ (l.perform r (.sec s)).clock := by
    rw [clock, clock, perform_node]
    exact l.node.le_clock_act r.toInput s
  -- a version that was minted here is the new reading of the clock
  have hissues : ∀ rec ∈ l.node.issues r.now s, rec.version.ms ≤ (l.perform r (.sec s)).clock := by
    intro rec hrec
    rw [clock, perform_node]
    exact (MembershipStore.issues_fresh hrec).2.2.le
  have hroster : Within (l.perform r (.sec s)).node (l.perform r (.sec s)).clock := by
    rw [perform_node]
    exact within_act (h.roster.mono hclock) (h.bound.trans hclock) (h.nodeId.symm ▸ hfine) hissues
  suffices hahead : (l.perform r (.sec s)).Ahead from ⟨hahead, hnode, h.bound.trans hclock, hroster⟩
  cases s with
  | connect | disconnect => exact h.ahead.record _ _
  | persist => exact (h.persist r).ahead
  | form newId =>
    cases hcid : l.node.clusterId with
    | some cid => exact (perform_form_some r hcid newId).symm ▸ h.ahead
    | none =>
      rw [perform_form_none r hcid] at hclock ⊢
      exact h.ahead.tick hclock _
  | own =>
    cases hown : l.node.roster.get? l.node.nodeId with
    | some own => exact (perform_own_some r hown).symm ▸ h.ahead
    | none =>
      rw [perform_own_none r hown] at hclock ⊢
      exact h.ahead.tick hclock _
  | read | mint | ordain | assign | bury | release | merge | clear | forget | collect => exact h.ahead.tick hclock _

theorem Settled.sec (h : l.Settled n c) (r : Reply) (hfine : Fine n c s) (hs : Steady l.node s) :
    (l.perform r (.sec s)).Settled n c := by
  have hb := h.bounded.sec r hfine
  have hsaved : l.savedClock ≤ (l.perform r (.sec s)).savedClock := by
    cases s with
    | connect | disconnect => exact (h.ahead.savedClock_record _ _).1
    | persist => exact h.ahead.clock
    | form newId =>
      cases hcid : l.node.clusterId with
      | some cid => rw [perform_form_some r hcid]
      | none => rw [perform_form_none r hcid]; rfl
    | own =>
      cases hown : l.node.roster.get? l.node.nodeId with
      | some own => rw [perform_own_some r hown]
      | none => rw [perform_own_none r hown]; rfl
    | read | mint | ordain | assign | bury | release | merge | clear | forget | collect => exact le_refl _
  refine ⟨hb.ahead, hb.nodeId, h.bound.trans hsaved, ?_⟩
  rw [perform_node]
  exact within_act (h.roster.mono hsaved) (h.bound.trans hsaved) (h.nodeId.symm ▸ hfine) (by simp [hs r.now])

/-! ## Operations -/

/-- The state between two operations. -/
def Rests (n : String) (l : Ledger) : Prop := l.Settled n l.savedClock

theorem Settled.rests (h : l.Settled n c) : l.Rests n := ⟨h.ahead, h.nodeId, le_refl _, h.roster⟩

/-- Run alone and within what is assumed, the thread keeps the state file ahead, and the
node is at rest in the end. -/
abbrev Runs (n : String) (t : LedgerThread) (l : Ledger) : Prop := t.Keeps perform Given Ahead (Rests n) l

/-- A section that neither mints into the roster nor brings in late versions. -/
def Calm (n : String) (c : ℤ) (s : Section) : Prop := Fine n c s ∧ ∀ m, Steady m s

theorem calm_of (hbrought : MembershipStore.brought s = [])
    (hissues : ∀ (m : MembershipStore) now, m.issues now s = []) : Calm n c s :=
  ⟨fine_nothing hbrought, hissues⟩

/-- What calm sections keep. -/
def Stable (n : String) (c : ℤ) (A : Ledger → Prop) : Prop :=
  ∀ l r s, A l → Calm n c s → (l.perform r (.sec s)).Ahead ∧ A (l.perform r (.sec s))

theorem stable_bounded (n : String) (c : ℤ) : Stable n c (Bounded n c) :=
  fun _ r _ h hs => ⟨(h.sec r hs.1).ahead, h.sec r hs.1⟩

theorem stable_settled (n : String) (c : ℤ) : Stable n c (Settled n c) :=
  fun l r _ h hs => ⟨(h.sec r hs.1 (hs.2 l.node)).ahead, h.sec r hs.1 (hs.2 l.node)⟩

theorem runs_read {k : MembershipStore → Now → LedgerThread} (hl : l.Ahead) (hk : ∀ now, Runs n (k l.node now) l) :
    Runs n (ledgerHost.atomic .read k) l := fun r _ => ⟨hl, hk r.now⟩

section Stable

variable {A : Ledger → Prop} (hA : Stable n c A) {k : LedgerThread}

include hA

theorem runs_run (s : Section) (hs : Calm n c s) (hk : ∀ l, A l → Runs n k l) : ∀ l, A l → Runs n (ledgerHost.run s k) l := by
  intro l hl r _
  obtain ⟨hahead, hnext⟩ := hA l r s hl hs
  exact ⟨hahead, hk _ hnext⟩

theorem runs_disconnectAll (nodes : List String) (hk : ∀ l, A l → Runs n k l) :
    ∀ l, A l → Runs n (ledgerHost.disconnectAll nodes k) l :=
  Thread.keeps_each (fun node _ _ hk => runs_run hA (.disconnect node) (calm_of rfl fun _ _ => rfl) hk) hk

theorem runs_becomeStandalone (hk : ∀ l, A l → Runs n k l) : ∀ l, A l → Runs n (ledgerHost.becomeStandalone k) l := by
  intro l hl r _
  obtain ⟨hahead, hcleared⟩ := hA l r .clear hl (calm_of rfl fun _ _ => rfl)
  refine ⟨hahead, ?_⟩
  exact runs_disconnectAll hA _ (runs_run hA .persist (calm_of rfl fun _ _ => rfl) hk) _ hcleared

theorem runs_merge {records : List WireRecord} (hrecords : ∀ v ∈ wireVersions records, v.node = n → v.ms ≤ c)
    (hk : ∀ l, A l → Runs n k l) : ∀ l, A l → Runs n (ledgerHost.merge records k) l := by
  intro l hl r _
  obtain ⟨hahead, hmerged⟩ := hA l r (.merge records) hl ⟨fine_merge hrecords, fun _ _ => rfl⟩
  refine ⟨hahead, ?_⟩
  dsimp only
  split
  · exact runs_becomeStandalone hA hk _ hmerged
  · split
    · exact runs_run hA .persist (calm_of rfl fun _ _ => rfl) hk _ hmerged
    · exact hk _ hmerged

end Stable

section Settled

variable {k : LedgerThread}

variable {versions : List Version}

theorem Settled.send (h : l.Settled n c) (r : Reply)
    (hversions : ∀ v ∈ versions, v.node = n → v.ms ≤ c) : (l.perform r (.send versions)).Settled n c := by
  refine ⟨{ h.ahead with sent := fun v hv => ?_ }, h.nodeId, h.bound, h.roster⟩
  rcases List.mem_append.mp hv with hold | hnew
  · exact h.ahead.sent v hold
  · obtain ⟨hmem, hnode⟩ := List.mem_filter.mp hnew
    exact (hversions v hmem ((of_decide_eq_true hnode).trans h.nodeId)).trans h.bound

theorem runs_send (hversions : ∀ v ∈ versions, v.node = n → v.ms ≤ c) (hk : ∀ l, l.Settled n c → Runs n k l) :
    ∀ l, l.Settled n c → Runs n (.step (.send versions) fun _ _ => k) l :=
  fun _ hl r _ => ⟨(hl.send r hversions).ahead, hk _ (hl.send r hversions)⟩

theorem runs_silent (hl : l.Ahead) (hk : Runs n k l) : Runs n (.step (.send []) fun _ _ => k) l := by
  intro r _
  have hsame : l.perform r (.send []) = l := by simp [perform]
  rw [hsame]
  exact ⟨hl, hk⟩

variable {records : List WireRecord}

theorem runs_pushRecords (hrecords : ∀ v ∈ wireVersions records, v.node = n → v.ms ≤ c)
    (hk : ∀ l, l.Settled n c → Runs n k l) : ∀ l, l.Settled n c → Runs n (ledgerHost.pushRecords records k) l := by
  intro l hl
  refine runs_read hl.ahead fun _ => runs_read hl.ahead fun _ => ?_
  refine Thread.keeps_each (fun rec _ k hk l hl => ?_) hk l hl
  exact runs_read hl.ahead fun _ => runs_send hrecords hk l hl

theorem runs_pushOwn (hk : ∀ l, l.Settled n c → Runs n k l) : ∀ l, l.Settled n c → Runs n (ledgerHost.pushOwn k) l := by
  intro l hl r hgiven
  obtain ⟨own, hown⟩ := Option.isSome_iff_exists.mp hgiven
  have hrecord : (l.node.myRecord r.now).1 = own := by simp [MembershipStore.myRecord, hown]
  rw [perform_own_some r hown]
  refine ⟨hl.ahead, ?_⟩
  have hpush : ∀ v ∈ wireVersions [(l.node.myRecord r.now).1.toDict], v.node = n → v.ms ≤ l.savedClock := by
    intro v hv hn
    obtain rfl : own.version = v := by simpa [wireVersions, MembershipRecord.toDict, WireRecord.fromDict, hrecord, eq_comm] using hv
    exact hl.roster _ own hown (hn.trans hl.nodeId.symm)
  exact runs_pushRecords hpush (fun l' hl' => hk l' (hl'.weaken hl.bound)) l hl.rests

theorem runs_reconcileConnections (hk : ∀ l, l.Settled n c → Runs n k l) :
    ∀ l, l.Settled n c → Runs n (ledgerHost.reconcileConnections k) l := by
  intro l hl
  refine runs_read hl.ahead fun _ => ?_
  split
  · exact hk l hl
  · refine runs_read hl.ahead fun _ => runs_read hl.ahead fun _ => ?_
    refine Thread.keeps_each (fun p _ _ hk => ?_) ?_ l hl
    · exact runs_run (stable_settled n c) (.connect p.2) (calm_of rfl fun _ _ => rfl) hk
    refine Thread.keeps_each (fun node _ k hk l hl => runs_read hl.ahead fun _ => ?_) hk
    split
    · exact runs_run (stable_settled n c) (.disconnect node) (calm_of rfl fun _ _ => rfl) hk l hl
    · exact hk l hl

theorem runs_leaveOld (old : String) (hk : ∀ l, l.Settled n c → Runs n k l) :
    ∀ l, l.Settled n c → Runs n (ledgerHost.leaveOld old k) l := by
  intro l hl
  refine runs_read hl.ahead fun _ => ?_
  refine Thread.keeps_each (fun rec _ k hk l hl => runs_read hl.ahead fun _ => ?_) ?_ l hl
  · exact runs_send (by simp [Message.versions]) hk l hl
  · apply runs_disconnectAll (stable_settled n c)
    exact runs_run (stable_settled n c) (.forget old) (calm_of rfl fun _ _ => rfl) hk

theorem runs_persist (hk : ∀ l, l.Settled n c → Runs n k l) : ∀ l, l.Bounded n c → Runs n (ledgerHost.run .persist k) l :=
  fun _ hl r _ => ⟨(hl.persist r).ahead, hk _ (hl.persist r)⟩

theorem runs_done : ∀ l, l.Settled n c → Runs n .done l := fun _ hl => hl.rests

theorem Bounded.raise (h : l.Bounded n c) : l.Bounded n l.clock := ⟨h.ahead, h.nodeId, le_refl _, h.roster⟩

variable {roster : List WireRecord}

theorem runs_enter (clusterId : String) (hroster : ∀ v ∈ wireVersions roster, v.node = n → v.ms ≤ c) :
    ∀ l, l.Settled n c → Runs n (ledgerHost.enter clusterId roster sendAnswer) l := by
  intro l hl r _
  have hminted := hl.bounded.sec r (s := .ordain clusterId) (fine_nothing rfl)
  refine ⟨hminted.ahead, ?_⟩
  have hstable := stable_bounded n (l.perform r (.sec (.ordain clusterId))).clock
  refine runs_run hstable (.assign _ _ _ _) ⟨fine_assign fun _ => le_refl _, fun _ _ => rfl⟩ ?_ _ hminted.raise
  refine runs_merge hstable (fun v hv hn => (hroster v hv hn).trans hminted.bound) ?_
  refine runs_persist (runs_reconcileConnections (runs_pushOwn ?_))
  refine runs_send (fun v hv _ => ?_) runs_done
  obtain rfl := List.mem_singleton.mp hv
  exact le_refl _

theorem runs_handleJoin {body : JoinRequest} (hroster : ∀ v ∈ wireVersions body.roster, v.node = n → v.ms ≤ c) :
    ∀ l, l.Settled n c → Runs n (ledgerHost.handleJoin body sendAnswer) l := by
  intro l hl
  refine runs_read hl.ahead fun _ => ?_
  split
  · exact runs_done l hl
  · split
    · exact runs_done l hl
    · refine runs_read hl.ahead fun _ => ?_
      split
      · exact runs_enter _ hroster l hl
      · split
        · exact runs_enter _ hroster l hl
        · exact runs_leaveOld _ (runs_enter _ hroster) l hl

variable (fromNode : String) (token : Option String)

theorem runs_handleEvictSelf : ∀ l, l.Settled n c → Runs n (ledgerHost.handleEvictSelf fromNode token .done) l := by
  intro l hl
  refine runs_read hl.ahead fun _ => ?_
  split
  · exact runs_done l hl
  · intro r _
    have hburied := hl.bounded.sec r (s := .release fromNode) (fine_nothing rfl)
    refine ⟨hburied.ahead, ?_⟩
    refine runs_run (stable_bounded n _) (.disconnect fromNode) (calm_of rfl fun _ _ => rfl) ?_ _ hburied.raise
    refine runs_persist (runs_pushRecords (fun v hv _ => ?_) runs_done)
    obtain rfl : v = _ := List.mem_singleton.mp hv
    exact le_refl _

theorem runs_handleEvicted : ∀ l, l.Settled n c → Runs n (ledgerHost.handleEvicted fromNode token .done) l := by
  intro l hl
  refine runs_read hl.ahead fun _ => ?_
  split
  · exact runs_done l hl
  · exact runs_becomeStandalone (stable_settled n c) runs_done l hl

theorem runs_serveSetSync (hrecords : ∀ v ∈ wireVersions records, v.node = n → v.ms ≤ c) :
    ∀ l, l.Settled n c → Runs n (ledgerHost.serveSetSync fromNode records token .done) l := by
  intro l hl
  refine runs_read hl.ahead fun _ => ?_
  split
  · exact runs_done l hl
  · exact runs_merge (stable_settled n c) hrecords runs_done l hl

theorem runs_removeMembers {k : List Bool → List WireRecord → LedgerThread}
    (hk : ∀ b results tombs, (∀ v ∈ wireVersions tombs, v.ms ≤ b) → ∀ l, l.Bounded n b → Runs n (k results tombs) l)
    (members : List Member) : ∀ (b : ℤ) (results : List Bool) (tombs : List WireRecord), (∀ v ∈ wireVersions tombs, v.ms ≤ b) →
      ∀ l, l.Bounded n b → Runs n (ledgerHost.removeMembers members results tombs k) l := by
  induction members with
  | nil => exact hk
  | cons member rest ih =>
    intro b results tombs htombs l hl
    unfold Host.removeMembers
    split
    · exact ih b _ tombs htombs l hl
    · intro r _
      have hburied := hl.sec r (s := .bury member.nodeId member.address) (fine_nothing rfl)
      refine ⟨hburied.ahead, ?_⟩
      refine runs_read hburied.ahead fun _ => runs_silent hburied.ahead ?_
      refine runs_run (stable_bounded n _) (.disconnect member.nodeId) (calm_of rfl fun _ _ => rfl) ?_ _ hburied.raise
      refine ih _ _ _ fun v hv => ?_
      rw [wireVersions, List.filterMap_append, List.map_append] at hv
      rcases List.mem_append.mp hv with hold | hnew
      · exact (htombs v hold).trans hburied.bound
      · obtain rfl : v = _ := List.mem_singleton.mp hnew
        exact le_refl _

theorem runs_setRemove (members : List Member) :
    ∀ l, l.Settled n c → Runs n (ledgerHost.setRemove members fun _ => .done) l := by
  intro l hl
  refine runs_removeMembers (fun b results tombs htombs l hl => ?_) members c [] [] (fun v hv => nomatch hv) l hl.bounded
  refine runs_persist (fun l hl => ?_) l hl
  split
  · exact runs_done l hl
  · exact runs_pushRecords (fun v hv _ => htombs v hv) runs_done l hl

theorem runs_finishAdd : ∀ l, l.Bounded n c → Runs n (ledgerHost.run .persist <| ledgerHost.reconcileConnections <|
    ledgerHost.atomic .read fun m _ => ledgerHost.pushRecords (m.roster.rows.map MembershipRecord.toDict) <|
      ledgerHost.atomic .read fun _ _ => .done) l := by
  refine runs_persist (runs_reconcileConnections fun l hl => runs_read hl.ahead fun _ => ?_)
  refine runs_pushRecords (c := l.savedClock) (fun v hv hn => ?_) (fun l hl => ?_) l hl.rests
  · obtain ⟨rec, hrec, rfl⟩ := mem_wireVersions_rows.mp hv
    exact hl.roster.of_mem hrec (hn.trans hl.nodeId.symm)
  · exact runs_read hl.ahead fun _ => runs_done l hl

variable {token : Option String} {cid : String}

theorem runs_addMembers {k : List AddResult → LedgerThread} (hk : ∀ b results l, l.Settled n b → Runs n (k results) l)
    (members : List Member) : ∀ (b : ℤ) (results : List AddResult), (∀ v ∈ wireVersions roster, v.node = n → v.ms ≤ b) →
      ∀ l, l.Settled n b → Runs n (ledgerHost.addMembers cid roster token members results k) l := by
  induction members with
  | nil => exact fun b results _ => hk b results
  | cons member rest ih =>
    intro b results hroster l hl
    unfold Host.addMembers
    split
    · exact ih b _ hroster l hl
    · intro r hgiven
      have hsent := hl.send r hroster
      refine ⟨hsent.ahead, ?_⟩
      dsimp only
      split
      · exact ih b _ hroster _ hsent
      · exact ih b _ hroster _ hsent
      · rename_i nodeId _ version hanswer
        -- an answer with this node's stamp repeats what the state file covers already
        have hecho : version.node = n → version.ms ≤ (l.perform r (.ask (wireVersions roster))).savedClock := by
          intro hn
          simp only [Given, answered, hanswer] at hgiven
          exact hl.ahead.sent version (hgiven version (by simp) (hn.trans hl.nodeId.symm))
        refine runs_run (stable_settled n _) (.assign _ _ _ version) ⟨fine_assign hecho, fun _ _ => rfl⟩ ?_ _ hsent.rests
        exact ih _ _ fun v hv hn => (hroster v hv hn).trans hsent.bound

variable {members : List Member}

theorem addMembers_of_no_address {k : List AddResult → LedgerThread} (h : ∀ member ∈ members, member.address = "") :
    ∀ results, ∃ results', ledgerHost.addMembers cid roster token members results k = k results' := by
  induction members with
  | nil => exact fun results => ⟨results, rfl⟩
  | cons member rest ih =>
    intro results
    unfold Host.addMembers
    rw [if_pos (h member (by simp))]
    exact ih (fun member hmem => h member (by simp [hmem])) _

theorem runs_setAdd (token : Option String) (newId : String) (hl : l.Settled n c)
    (hpermits : l.node.clusterId.isSome ∨ ∀ member ∈ members, member.address = "") :
    Runs n (ledgerHost.setAdd members token newId fun _ _ => .done) l := by
  intro r _
  have hformed := hl.bounded.sec r (s := .form newId) (fine_nothing rfl)
  refine ⟨hformed.ahead, ?_⟩
  cases hpermits with
  | inl hmember =>
    obtain ⟨cid, hcid⟩ := Option.isSome_iff_exists.mp hmember
    rw [perform_form_some r hcid]
    refine runs_addMembers (fun b results l hl => runs_finishAdd l hl.bounded) members l.savedClock [] ?_ l hl.rests
    intro v hv hn
    have hform : l.node.form r.now newId = l.node := by simp [MembershipStore.form, hcid]
    rw [hform] at hv
    obtain ⟨rec, hrec, rfl⟩ := mem_wireVersions_rows.mp hv
    exact hl.roster.of_mem (List.mem_filter.mp hrec).1 (hn.trans hl.nodeId.symm)
  | inr hnone =>
    obtain ⟨results, hresults⟩ := addMembers_of_no_address (k := fun _ => ledgerHost.run .persist <|
      ledgerHost.reconcileConnections <| ledgerHost.atomic .read fun m _ =>
        ledgerHost.pushRecords (m.roster.rows.map MembershipRecord.toDict) <| ledgerHost.atomic .read fun _ _ => .done)
      hnone []
    refine Eq.mpr (congrArg (Runs n · _) hresults) ?_
    exact runs_finishAdd _ hformed

theorem Echoes.le (h : l.Echoes versions) (hl : l.Settled n c) : ∀ v ∈ versions, v.node = n → v.ms ≤ l.savedClock :=
  fun v hv hn => hl.ahead.sent v (h v hv (hn.trans hl.nodeId.symm))

theorem runs_command {command : Command} (hl : l.Rests n) (hpermits : l.Permits command) :
    Runs n (ledgerHost.serve command sendAnswer .done) l := by
  cases command with
  | setAdd members token newId => exact runs_setAdd token newId hl hpermits
  | setRemove members => exact runs_setRemove members l hl
  | join body => exact runs_handleJoin (Echoes.le hpermits hl) l hl
  | leave fromNode token => exact runs_handleEvictSelf fromNode token l hl
  | evicted fromNode token => exact runs_handleEvicted fromNode token l hl
  | setSync fromNode records token => exact runs_serveSetSync fromNode token (Echoes.le hpermits hl) l hl
  | merge records => exact runs_merge (stable_settled n _) (Echoes.le hpermits hl) runs_done l hl
  | reconcileConnections => exact runs_reconcileConnections runs_done l hl
  | collect => exact runs_run (stable_settled n _) .collect (calm_of rfl fun _ _ => rfl) runs_done l hl

theorem Settled.record (h : l.Settled n c) (now : Now) (op : Operation) : (l.record now op).Settled n c := by
  have hsaved := (h.ahead.savedClock_record now op).1
  have hnode : (l.record now op).node.nodeId = l.node.nodeId := (l.node.store.saves_exec now op).node
  exact ⟨h.ahead.record now op, hnode.trans h.nodeId, h.bound.trans hsaved,
    fun node rec hrec hn => (h.roster node rec hrec (hn.trans hnode)).trans hsaved⟩

theorem Settled.tick (h : l.Settled n c) {clock : ℤ} (hle : l.clock ≤ clock) :
    Settled n c { l with node := { l.node with
      store := { l.node.store with state := { l.node.store.state with versionClock := clock } } } } :=
  ⟨h.ahead.tick hle _, h.nodeId, h.bound, h.roster⟩

theorem runs_job {job : Job} (hl : l.Rests n) (hpermits : ∀ command, job = .control command → l.Permits command) :
    Runs n job.thread l := by
  cases job with
  | control command => exact runs_command hl (hpermits command rfl)
  | data op => exact fun r _ => ⟨hl.ahead.record r.now op, (Settled.record hl r.now op).rests⟩
  | setDigest fromNode token =>
    refine runs_read hl.ahead fun _ => runs_send (fun v hv hn => ?_) runs_done l hl
    unfold MembershipStore.serveSetDigest at hv
    split at hv
    · cases hv
    obtain ⟨p, hp, rfl⟩ := List.mem_map.mp hv
    obtain ⟨rec, hrec, rfl⟩ := List.mem_map.mp hp
    exact hl.roster.of_mem hrec (hn.trans hl.nodeId.symm)
  | setPull fromNode nodeIds token =>
    refine runs_read hl.ahead fun _ => runs_send (fun v hv hn => ?_) runs_done l hl
    unfold MembershipStore.serveSetPull at hv
    split at hv
    · cases hv
    simp only [wireVersions, MembershipStore.recordsFor, List.mem_map, List.mem_filterMap] at hv
    obtain ⟨rec, ⟨raw, ⟨node, -, hraw⟩, hrec⟩, rfl⟩ := hv
    obtain ⟨rec', hrec', rfl⟩ := Option.map_eq_some_iff.mp hraw
    obtain rfl := Option.some.inj hrec
    exact hl.roster node rec' hrec' (hn.trans hl.nodeId.symm)
  | nextVersion => exact runs_run (stable_settled n _) .mint (calm_of rfl fun _ _ => rfl) runs_done l hl
  | nextVersionAfter floorMs =>
    intro r _
    have hle : l.clock ≤ (l.node.store.nextVersionAfter r.now floorMs).2.state.versionClock :=
      (le_of_lt (lt_add_one _)).trans ((le_max_right _ _).trans (le_max_left _ _))
    have hticked := Settled.tick hl hle
    exact ⟨hticked.ahead, hticked.rests⟩
  | observeVersion ms =>
    have hticked := Settled.tick hl (le_max_left l.clock ms)
    exact fun _ _ => ⟨hticked.ahead, hticked.rests⟩

end Settled

/-! ## Crashes -/

theorem remember_mem {own cid : String} (records : List WireRecord) :
    ∀ {roster : Table MembershipRecord.nodeId} {node : String} {rec : MembershipRecord},
      (records.foldl (MembershipStore.remember own cid) roster).get? node = some rec →
      roster.get? node = some rec ∨ rec.version ∈ wireVersions records ∨ rec.version.node ≠ own := by
  induction records with
  | nil => exact fun h => .inl h
  | cons raw records ih =>
    intro roster node rec h
    have hrest : ∀ {P Q : Prop}, P ∨ rec.version ∈ wireVersions records ∨ Q →
        P ∨ rec.version ∈ wireVersions (raw :: records) ∨ Q :=
      Or.imp_right (Or.imp_left fun hmem => by cases raw <;> simp_all [wireVersions, WireRecord.fromDict])
    rcases ih h with hroster | hmem
    · unfold MembershipStore.remember at hroster
      split at hroster
      · exact .inl hroster
      · rename_i r hr
        split at hroster
        · exact .inl hroster
        · rename_i hnew
          rw [Table.get?_insert] at hroster
          split at hroster
          · obtain rfl := Option.some.inj hroster
            refine .inr ?_
            cases raw with
            | record r' =>
              obtain rfl := Option.some.inj hr
              exact .inl (by simp [wireVersions, WireRecord.fromDict])
            | hint nodeId address =>
              -- a hint gets a version with the stamp of the node that it names
              obtain ⟨-, hr⟩ := Option.ite_none_left_eq_some.mp hr
              obtain rfl := Option.some.inj hr
              exact .inr fun (hown : nodeId = own) => hnew (by simp [hown])
            | malformed => cases hr
          · exact .inl hroster
    · exact hrest (.inr hmem)

theorem Ahead.rebooted (h : l.Ahead) (hn : l.node.nodeId = n) (registry : Option RegistryService) :
    Settled n l.savedClock { l with node := { store := l.rebooted registry } } := by
  have hcovered : Covered l.node.store.saved.nodeId l.savedClock l.node.store.saved := h.node.symm ▸ h.saved
  refine ⟨⟨rfl, le_refl _, ?_, hcovered, hcovered, h.sent, h.stamped, h.increasing⟩, h.node.trans hn, le_refl _, ?_⟩
  · exact fun env henv => nomatch henv
  · exact fun node rec hrec => nomatch hrec

theorem Ahead.restart (h : l.Ahead) (hn : l.node.nodeId = n) (now : Now) (registry : Option RegistryService) :
    (l.restart now registry).Rests n := by
  have hrebooted := h.rebooted hn registry
  unfold Ledger.restart MembershipStore.initFromState
  split
  · exact hrebooted.rests
  · rename_i cid hcid
    obtain ⟨v, hv⟩ := Option.isSome_iff_exists.mp (h.saved.member (Option.isSome_of_eq_some hcid))
    have hversion : MembershipStore.restoredVersion (l.rebooted registry) now =
        (v, (l.rebooted registry).observeVersion v.ms) := by
      simp [MembershipStore.restoredVersion, Ledger.rebooted, hv]
    refine Eq.mpr (congrArg (fun p => Rests n { l with node := MembershipStore.rejoin p.2 now cid p.1 }) hversion) ?_
    have hticked := hrebooted.tick (le_max_left (l.savedClock) v.ms)
    refine ⟨hticked.ahead.tick (le_refl _) _, hticked.nodeId, le_refl _, ?_⟩
    intro node rec hrec hnode
    simp only [MembershipStore.rejoin, MembershipStore.gcMembership, Table.get?_filter] at hrec
    have hstamp : rec.version.node = l.node.nodeId := hnode.trans h.node
    rcases remember_mem _ (Option.filter_eq_some_iff.mp hrec).1 with hown | hfile | hother
    · rw [Table.get?_insert] at hown
      split at hown
      · obtain rfl := Option.some.inj hown
        exact h.saved.mine v hv hstamp
      · cases hown
    · exact h.saved.roster _ hfile hstamp
    · exact absurd hnode hother

/-! ## Machines -/

@[simp] theorem perform_nodeId (l : Ledger) (r : Reply) (e : Act) : (l.perform r e).node.nodeId = l.node.nodeId := by
  cases e with
  | sec s => rw [perform_node, MembershipStore.act_nodeId]
  | data op => exact (l.node.store.saves_exec r.now op).node
  | nextVersionAfter | observeVersion | send | ask => rfl

end Ledger

namespace Machine

/-- At most one operation is under way, and what is left of it keeps the file ahead. -/
structure Sound (n : String) (p : Machine) : Prop where
  ahead : p.state.Ahead
  nodeId : p.state.node.nodeId = n
  threads : (p.threads = [] ∧ p.state.Rests n) ∨ ∃ t, p.threads = [t] ∧ Ledger.Runs n t p.state

variable {p : Machine}

theorem Sound.rests {n : String} (h : p.Sound n) (hidle : ∀ t ∈ p.threads, t.finished = true) : p.state.Rests n := by
  rcases h.threads with ⟨-, hrests⟩ | ⟨t, ht, hruns⟩
  · exact hrests
  · have hdone := hidle t (by simp [ht])
    cases t with
    | done => exact hruns
    | step e next => cases hdone

theorem Sound.step {n : String} (h : p.Sound n) {e : Occurrence} (he : p.Orderly e) : (p.step e).Sound n := by
  cases e with
  | call job =>
    obtain ⟨hidle, hpermits⟩ : (∀ t ∈ p.threads, t.finished = true) ∧
        ∀ command, job = .control command → p.state.Permits command := by
      cases job with
      | control command => exact ⟨he.1, by rintro _ ⟨rfl⟩; exact he.2⟩
      | data | setDigest | setPull | nextVersion | nextVersionAfter | observeVersion => exact ⟨he, by simp⟩
    have hfilter : p.threads.filter (fun t => !t.finished) = [] := by simpa using hidle
    refine ⟨h.ahead, h.nodeId, .inr ⟨job.thread, by simp [Machine.step, hfilter], ?_⟩⟩
    exact Ledger.runs_job (h.rests hidle) hpermits
  | go thread r =>
    rcases Pool.step_cases Ledger.perform p (thread, r) with ⟨e, next, ht, hpending, hstep⟩ | ⟨-, hstep⟩
    · -- the only thread there can be is the first
      obtain ⟨t, hthreads, hruns⟩ : ∃ t, p.threads = [t] ∧ Ledger.Runs n t p.state := by
        refine h.threads.resolve_left fun hnone => ?_
        rw [hnone.1] at ht
        cases ht
      obtain ⟨rfl, rfl⟩ : thread = 0 ∧ t = .step e next := by
        rw [hthreads] at ht
        cases thread with
        | zero => exact ⟨rfl, Option.some.inj ht⟩
        | succ i => cases ht
      obtain ⟨hahead, hnext⟩ := hruns r (he e hpending)
      rw [Machine.step, hstep]
      exact ⟨hahead, (Ledger.perform_nodeId _ _ _).trans h.nodeId, .inr ⟨_, by simp [hthreads], hnext⟩⟩
    · rw [Machine.step, hstep]
      exact h
  | crash now registry =>
    have hrests := h.ahead.restart h.nodeId now registry
    exact ⟨hrests.ahead, hrests.nodeId, .inl ⟨rfl, hrests⟩⟩

theorem sound_init (nodeId : String) (config : ClusterConfig) (registry : Option RegistryService) (advertise : String)
    (authStore : Option AuthStore) : (init nodeId config registry advertise authStore).Sound nodeId := by
  have hcovered : Covered nodeId 0 { nodeId } := by
    constructor <;> simp [wireVersions]
  have hahead : (init nodeId config registry advertise authStore).state.Ahead := by
    refine ⟨rfl, le_refl _, ?_, hcovered, hcovered, ?_, ?_, List.Pairwise.nil⟩
    · intro _ h; cases h
    · intro _ h; cases h
    · intro _ h; cases h
  refine ⟨hahead, rfl, .inl ⟨rfl, hahead, rfl, le_refl _, ?_⟩⟩
  intro _ _ h; cases h

end Machine

/-- The clock in the state file covers every version that the node has sent, whatever the
node mints next is later than all of them, and each record's stamps increase. -/
structure Ledger.WrittenAhead (l : Ledger) : Prop where
  saved : ∀ v ∈ l.sent, v.ms ≤ l.savedClock
  minted : ∀ v ∈ l.sent, ∀ now floorMs, v < (l.node.store.nextVersion now).1 ∧
    v < (l.node.store.nextVersionAfter now floorMs).1
  stamps : l.stamps.Pairwise fun p q => p.1 = q.1 → p.2 < q.2

/-- The next section of the first thread, when the wall clock shows `wallMs`. -/
def Occurrence.goAt (wallMs : ℤ) : Occurrence :=
  .go 0 { now := ⟨0, wallMs⟩, peers := MembershipStore.deafTransport.toTransport, answer := .error .transportError }

end AgentProtocol
