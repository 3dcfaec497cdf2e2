-- SUMMARY: The operations of the membership control plane as sequences of atomic sections, for any way of running these.
import AgentProtocol.Cluster.Durable
import AgentProtocol.Cluster.Membership

/-!
# Control plane

An operation of `MembershipStore` takes the lock several times, and calls peers and the
cluster store in between. `Section` lists the blocks that run under a lock, `act` says
what they do.

The operations themselves are written against a `Host`: something that can run a section,
wait for the answer to a `join`, and send a message whose outcome is ignored, each time
with what is to follow. So the same text can be run alone, interleaved with others
on one node, or within a network of nodes that answer each other.
-/

namespace AgentProtocol

open Lib

/-- What a section gets from outside. -/
structure Input where
  now : Now
  /-- What the data plane of a peer answers when this node connects to it. -/
  peers : Transport Unit

/-- What the environment supplies to a thread: also the answer, if it waits for one. -/
structure Reply extends Input where
  answer : Except RpcError JoinResponse

/-- The blocks under a lock that the operations consist of. -/
inductive Section where
  | read
  /-- `set_add`: form a cluster, unless the node is in one. -/
  | form (newId : String)
  /-- `next_version`. -/
  | mint
  /-- `adopt`: the version for the own record in that cluster. -/
  | ordain (clusterId : String)
  /-- `my_record`. -/
  | own
  /-- File a live record, whatever the roster holds for that node. -/
  | assign (nodeId clusterId address : String) (version : Version)
  /-- `set_remove`: bury one member; the address is the one that the request gives. -/
  | bury (node address : String)
  /-- `handle_evict_self`: bury a member that leaves. -/
  | release (node : String)
  | merge (records : List WireRecord)
  /-- `_become_standalone`. -/
  | clear
  /-- The end of `leave_old`. -/
  | forget (old : String)
  | disconnect (node : String)
  | connect (address : String)
  | persist
  /-- `gc_membership`. -/
  | collect

/-- Calls to peers whose outcome is ignored. -/
inductive Message where
  | sync (address : String) (records : List WireRecord) (token : Option String)
  | evict (address : String) (clusterId token : Option String)
  | evictSelf (address : String) (token : Option String)

/-- A member in the body of `set_add` or `set_remove`; missing fields are empty. -/
structure Member where
  address : String := ""
  nodeId : String := ""

/-- What became of one member of a `set_add`. -/
inductive AddResult where
  | addressRequired
  | unreachable (address : String)
  | rejected (address error : String)
  | added (address nodeId : String)

/-- What a node is asked to do. -/
inductive Command where
  | setAdd (members : List Member) (token : Option String) (newId : String)
  | setRemove (members : List Member)
  | join (body : JoinRequest)
  /-- `leave`, served by `handle_evict_self`. -/
  | leave (fromNode : String) (token : Option String)
  | evicted (fromNode : String) (token : Option String)
  | setSync (fromNode : String) (records : List WireRecord) (token : Option String)
  /-- Anti-entropy has pulled these. -/
  | merge (records : List WireRecord)
  | reconcileConnections
  | collect

namespace MembershipStore

/-! ## Sections -/

/-- The first block of `set_add`. -/
def form (m : MembershipStore) (now : Now) (newId : String) : MembershipStore :=
  match m.clusterId with
  | some _ => m
  | none =>
    let (version, store) := m.store.nextVersion now
    let own : MembershipRecord :=
      { nodeId := m.nodeId, clusterId := some newId, address := m.store.advertise, version }
    { store, roster := m.roster.insert own }

/-- The tombstone for `node`, and the store after minting its version. -/
def tombstone (m : MembershipStore) (now : Now) (node : String) (clusterId : Option String) (address : String) :
    MembershipRecord × ClusterStore :=
  let cur := m.roster.get? node
  let (version, store) := m.store.nextVersionAfter now ((cur.map (·.version.ms)).getD 0)
  ({ nodeId := node, clusterId, address := (cur.map (·.address)).getD address, version, removed := true }, store)

/-- The tombstone that `set_remove` writes. -/
def buried (m : MembershipStore) (now : Now) (node address : String) : MembershipRecord × ClusterStore :=
  m.tombstone now node m.clusterId address

/-- The tombstone that `handle_evict_self` writes. -/
def released (m : MembershipStore) (now : Now) (node : String) : MembershipRecord × ClusterStore :=
  m.tombstone now node ((m.roster.get? node).elim m.clusterId (·.clusterId)) ""

def gcMembership (m : MembershipStore) (now : Now) : MembershipStore :=
  { m with roster := m.roster.filter fun r => !(r.removed && ClusterStore.expired m.store.config now r.version.ms) }

/-- One entry of `last_roster`, as a restart reads it. -/
def restored (cid : String) : WireRecord → Option MembershipRecord
  | .record r => some r
  | .hint nodeId address =>
    if nodeId = "" then none else some { nodeId, clusterId := some cid, address, version := ⟨0, nodeId⟩ }
  | .malformed => none

/-- One round of the loop in `_init_from_state`. -/
def remember (own cid : String) (roster : Table MembershipRecord.nodeId) (raw : WireRecord) :
    Table MembershipRecord.nodeId :=
  match restored cid raw with
  | none => roster
  | some rec => if rec.nodeId = own || (roster.get? rec.nodeId).isSome then roster else roster.insert rec

/-- The version of the own record after a restart. -/
def restoredVersion (store : ClusterStore) (now : Now) : Version × ClusterStore :=
  match store.state.myMembershipVersion with
  | some version => (version, store.observeVersion version.ms)
  | none => store.nextVersion now

/-- The roster after a restart in a cluster. -/
def rejoin (store : ClusterStore) (now : Now) (cid : String) (version : Version) : MembershipStore :=
  let own : MembershipRecord :=
    { nodeId := store.nodeId, clusterId := some cid, address := store.advertise, version }
  gcMembership { store, roster := store.state.lastRoster.foldl (remember store.nodeId cid) (Table.insert ∅ own) } now

def initFromState (store : ClusterStore) (now : Now) : MembershipStore :=
  match store.state.clusterId with
  | none => { store }
  | some cid =>
    let (version, store) := restoredVersion store now
    rejoin store now cid version

def act (m : MembershipStore) (i : Input) : Section → MembershipStore
  | .read => m
  | .form newId => m.form i.now newId
  | .mint => { m with store := (m.store.nextVersion i.now).2 }
  | .ordain _ => { m with store := (m.store.nextVersion i.now).2 }
  | .own => (m.myRecord i.now).2
  | .assign nodeId clusterId address version =>
    { m with roster := m.roster.insert { nodeId, clusterId := some clusterId, address, version } }
  | .bury node address =>
    let (tomb, store) := m.buried i.now node address
    { store, roster := m.roster.insert tomb }
  | .release node =>
    let (tomb, store) := m.released i.now node
    { store, roster := m.roster.insert tomb }
  | .merge records => { m with roster := (mergeLoop m.nodeId records m.roster false false).1 }
  | .clear => { m with roster := ∅ }
  | .forget old =>
    { m with roster := m.roster.filter fun rec => rec.nodeId = m.nodeId || rec.clusterId ≠ some old }
  | .disconnect node => m.disconnectAll i.now [node]
  | .connect address => { m with store := (m.store.connectPeer i.peers i.now address [] none ()).2.1 }
  | .persist => m.persist
  | .collect => m.gcMembership i.now

def issues (m : MembershipStore) (now : Now) : Section → List MembershipRecord
  | .form newId => match m.clusterId with
    | some _ => []
    | none => [{ nodeId := m.nodeId, clusterId := some newId, address := m.store.advertise
                 version := (m.store.nextVersion now).1 }]
  | .ordain clusterId =>
    [{ nodeId := m.nodeId, clusterId := some clusterId, address := m.store.advertise
       version := (m.store.nextVersion now).1 }]
  | .own => match m.roster.get? m.nodeId with
    | some _ => []
    | none => [(m.myRecord now).1]
  | .bury node address => [(m.buried now node address).1]
  | .release node => [(m.released now node).1]
  | _ => []

/-- The records that a section puts into the roster from elsewhere. -/
def brought : Section → List MembershipRecord
  | .assign nodeId clusterId address version => [{ nodeId, clusterId := some clusterId, address, version }]
  | .merge records => records.filterMap WireRecord.fromDict
  | _ => []

/-- The live records, as `set_add` sends them along with a `join`. -/
def snapshot (m : MembershipStore) : List WireRecord :=
  (m.roster.rows.filter fun r => !r.removed).map MembershipRecord.toDict

/-- The members that a push goes to. -/
def targets (m : MembershipStore) (cid : Option String) : List MembershipRecord :=
  (m.members cid).filter fun r => r.address ≠ ""

/-- What a peer's version map has newer than ours, in `reconcile_with`. -/
def wanted (m : MembershipStore) (remote : List (String × Version)) : List String :=
  (remote.filter fun p => versionNewer p.2 ((m.roster.get? p.1).map (·.version))).map Prod.fst

variable {rec : MembershipRecord}

theorem get?_remember {own cid node : String} (records : List WireRecord) :
    ∀ {roster : Table MembershipRecord.nodeId}, roster.get? node = some rec →
      (records.foldl (remember own cid) roster).get? node = some rec := by
  induction records with
  | nil => exact fun h => h
  | cons raw records ih =>
    intro roster h
    apply ih
    unfold remember
    split
    · exact h
    · split
      · exact h
      · rename_i r _ hnew
        have hne : r.nodeId ≠ node := by
          rintro rfl
          simp [h] at hnew
        rwa [Table.get?_insert_of_ne hne]

theorem rejoin_own (store : ClusterStore) (now : Now) (cid : String) (version : Version) :
    (rejoin store now cid version).roster.get? store.nodeId =
      some { nodeId := store.nodeId, clusterId := some cid, address := store.advertise, version } := by
  simp only [rejoin, gcMembership, Table.get?_filter]
  rw [get?_remember _ (Table.get?_insert_self ∅ _)]
  rfl

/-! ## What sections do -/

variable (own : String) (records : List WireRecord)

theorem mergeLoop_mem :
    ∀ (roster : Table MembershipRecord.nodeId) (changed evicted : Bool) (node : String) (rec : MembershipRecord),
      (mergeLoop own records roster changed evicted).1.get? node = some rec →
      roster.get? node = some rec ∨ rec ∈ records.filterMap WireRecord.fromDict := by
  induction records with
  | nil => exact fun _ _ _ _ _ h => .inl h
  | cons raw rest ih =>
    intro roster changed evicted node rec h
    unfold mergeLoop at h
    cases hraw : raw.fromDict with
    | none =>
      rw [hraw] at h
      simpa [hraw] using ih _ _ _ node rec h
    | some r =>
      have hrest : ∀ {P : Prop}, P ∨ rec ∈ rest.filterMap WireRecord.fromDict →
          P ∨ rec ∈ (raw :: rest).filterMap WireRecord.fromDict :=
        Or.imp_right fun hmem => by simpa [hraw] using Or.inr hmem
      rw [hraw] at h
      dsimp only at h
      split at h
      · exact hrest (ih _ _ _ node rec h)
      · split at h
        · exact hrest (ih _ _ _ node rec h)
        · rcases ih _ _ _ node rec h with hroster | hmem
          · rw [Table.get?_insert] at hroster
            split at hroster
            · obtain rfl := Option.some.inj hroster
              exact .inr (by simp [hraw])
            · exact .inl hroster
          · exact hrest (.inr hmem)

theorem mergeLoop_notBack : ∀ (roster : Table MembershipRecord.nodeId) (changed evicted : Bool) (node : String) (v : Version),
      (roster.get? node).map (·.version) = some v →
      ∃ v', ((mergeLoop own records roster changed evicted).1.get? node).map (·.version) = some v' ∧ v ≤ v' := by
  induction records with
  | nil => exact fun _ _ _ _ v hv => ⟨v, hv, le_refl v⟩
  | cons raw rest ih =>
    intro roster changed evicted node v hv
    unfold mergeLoop
    split
    · exact ih _ _ _ node v hv
    · rename_i r _
      split
      · exact ih _ _ _ node v hv
      · rename_i hwins
        split
        · exact ih _ _ _ node v hv
        · -- the record is filed: either it is about another node, or it is newer
          have hlater : ∃ v₁, ((roster.insert r).get? node).map (·.version) = some v₁ ∧ v ≤ v₁ := by
            rw [Table.get?_insert]
            split
            · rename_i hnode
              subst hnode
              have hnewer : versionNewer r.version (some v) = true := by
                rw [← hv]
                simpa [newer] using hwins
              exact ⟨r.version, rfl, (Lww.newer_some.mp hnewer).le⟩
            · exact ⟨v, hv, le_refl v⟩
          obtain ⟨v₁, hv₁, hle₁⟩ := hlater
          obtain ⟨v₂, hv₂, hle₂⟩ := ih _ true evicted node v₁ hv₁
          exact ⟨v₂, hv₂, hle₁.trans hle₂⟩

theorem mergeLoop_own : ∀ (roster : Table MembershipRecord.nodeId) (changed evicted : Bool),
      (mergeLoop own records roster changed evicted).1.get? own = roster.get? own := by
  induction records with
  | nil => exact fun _ _ _ => rfl
  | cons raw rest ih =>
    intro roster changed evicted
    unfold mergeLoop
    split
    · exact ih _ _ _
    · split
      · exact ih _ _ _
      · split
        · exact ih _ _ _
        · rename_i hnode
          rw [ih, Table.get?_insert_of_ne hnode]

variable {m : MembershipStore} {s : Section}

theorem roster_act {i : Input} {node : String} (h : (m.act i s).roster.get? node = some rec) :
    m.roster.get? node = some rec ∨ rec ∈ m.issues i.now s ∨ rec ∈ brought s := by
  have hinsert : ∀ {r : MembershipRecord}, (m.roster.insert r).get? node = some rec →
      m.roster.get? node = some rec ∨ rec = r := by
    intro r hr
    rw [Table.get?_insert] at hr
    split at hr
    · exact .inr (Option.some.inj hr).symm
    · exact .inl hr
  have hfilter : ∀ {p : MembershipRecord → Bool}, (m.roster.filter p).get? node = some rec →
      m.roster.get? node = some rec := by
    intro p hp
    rw [Table.get?_filter] at hp
    exact (Option.filter_eq_some_iff.mp hp).1
  cases s with
  | form newId =>
    simp only [act, form] at h
    simp only [issues]
    split at h
    · exact .inl h
    · exact (hinsert h).imp_right fun heq => .inl (List.mem_singleton.mpr heq)
  | own =>
    simp only [act, myRecord] at h
    simp only [issues, myRecord]
    cases hown : m.roster.get? m.nodeId with
    | some own =>
      rw [hown] at h
      exact .inl h
    | none =>
      rw [hown] at h
      exact (hinsert h).imp_right fun heq => .inl (List.mem_singleton.mpr heq)
  | assign => exact (hinsert h).imp_right fun heq => .inr (List.mem_singleton.mpr heq)
  | bury | release => exact (hinsert h).imp_right fun heq => .inl (List.mem_singleton.mpr heq)
  | merge records => exact (mergeLoop_mem _ _ _ _ _ _ _ h).imp_right .inr
  | clear => cases h
  | forget | collect => exact .inl (hfilter h)
  | read | mint | ordain | disconnect | connect | persist => exact .inl h

theorem issues_fresh {i : Input}
    (h : rec ∈ m.issues i.now s) : rec.version.node = m.nodeId ∧ m.store.state.versionClock < rec.version.ms ∧
      rec.version.ms = (m.act i s).store.state.versionClock := by
  have hmint := m.store.lt_nextTs i.now
  have hafter : ∀ floorMs, m.store.state.versionClock < (m.store.nextVersionAfter i.now floorMs).1.ms := fun floorMs =>
    (lt_add_one _).trans_le ((le_max_right _ _).trans (le_max_left _ _))
  cases s with
  | form newId =>
    simp only [issues] at h
    simp only [act, form]
    split at h
    · cases h
    obtain rfl := List.mem_singleton.mp h
    exact ⟨rfl, hmint, rfl⟩
  | own =>
    simp only [issues] at h
    simp only [act]
    split at h
    · cases h
    rename_i hnone
    obtain rfl := List.mem_singleton.mp h
    simp only [myRecord, hnone]
    exact ⟨rfl, hmint, rfl⟩
  | ordain clusterId =>
    obtain rfl := List.mem_singleton.mp h
    exact ⟨rfl, hmint, rfl⟩
  | bury | release =>
    obtain rfl := List.mem_singleton.mp h
    exact ⟨rfl, hafter _, rfl⟩
  | read | mint | assign | merge | clear | forget | disconnect | connect | persist | collect => cases h

theorem issues_unique {now : Now} {a b : MembershipRecord} (ha : a ∈ m.issues now s) (hb : b ∈ m.issues now s) : a = b := by
  have hshape : m.issues now s = [] ∨ ∃ x, m.issues now s = [x] := by
    unfold issues
    repeat' split
    all_goals simp
  rcases hshape with hnil | ⟨x, hx⟩
  · simp [hnil] at ha
  · rw [hx, List.mem_singleton] at ha hb
    rw [ha, hb]

variable (m : MembershipStore) (i : Input) (s : Section)

@[simp] theorem act_nodeId : (m.act i s).nodeId = m.nodeId := by
  cases s with
  | form newId =>
    simp only [act, form]
    split <;> rfl
  | own =>
    simp only [act, myRecord]
    split <;> rfl
  | connect address => exact (ClusterStore.sameNode_exec m.store i.now (.connectPeer address [] none i.peers)).node
  | read | mint | ordain | assign | bury | release | merge | clear | forget | disconnect | persist | collect => rfl

@[simp] theorem act_advertise : (m.act i s).store.advertise = m.store.advertise := by
  cases s with
  | form newId =>
    simp only [act, form]
    split <;> rfl
  | own =>
    simp only [act, myRecord]
    split <;> rfl
  | connect address =>
    simp only [act, ClusterStore.connectPeer_store]
    split
    · rfl
    · rename_i resp r' _
      have honly := (ClusterStore.reconcile_store i.peers (m.store.recordSession i.now address resp).2 i.now
        (m.store.recordSession i.now address resp).1 r').1
      rw [honly.proj ClusterStore.advertise fun _ _ => rfl]
      exact ClusterStore.ensureLocalVersions_proj i.now ClusterStore.advertise _ (fun _ _ => rfl) fun _ => rfl
  | read | mint | ordain | assign | bury | release | merge | clear | forget | disconnect | persist | collect => rfl

theorem le_clock_act : m.store.state.versionClock ≤ (m.act i s).store.state.versionClock := by
  have hmint : m.store.state.versionClock ≤ (m.store.nextVersion i.now).2.state.versionClock :=
    (m.store.lt_nextTs i.now).le
  have hafter : ∀ floorMs, m.store.state.versionClock ≤
      (m.store.nextVersionAfter i.now floorMs).2.state.versionClock := fun floorMs =>
    (le_of_lt (lt_add_one _)).trans ((le_max_right _ _).trans (le_max_left _ _))
  cases s with
  | form newId =>
    simp only [act, form]
    split
    · exact le_refl _
    · exact hmint
  | own =>
    simp only [act, myRecord]
    split
    · exact le_refl _
    · exact hmint
  | mint | ordain => exact hmint
  | bury | release => exact hafter _
  | connect address => exact (m.store.saves_exec i.now (.connectPeer address [] none i.peers)).clock
  | read | assign | merge | clear | forget | disconnect | persist | collect => exact le_refl _

end MembershipStore

/-! ## Operations -/

/-- A way of running operations: `τ` is what is left to run. -/
structure Host (τ : Type) where
  atomic : Section → (MembershipStore → Now → τ) → τ
  join : String → JoinRequest → (Except RpcError JoinResponse → τ) → τ
  tell : Message → τ → τ

namespace Host

variable {τ : Type} (H : Host τ)

/-- A section whose result nothing depends on. -/
def run (s : Section) (k : τ) : τ := H.atomic s fun _ _ => k

/-- Do something for each element, in order. -/
def each {α : Type} (l : List α) (f : α → τ → τ) (k : τ) : τ := l.foldr f k

def disconnectAll (nodes : List String) (k : τ) : τ := each nodes (fun node => H.run (.disconnect node)) k

def becomeStandalone (k : τ) : τ :=
  H.atomic .clear fun m _ =>
    H.disconnectAll ((m.roster.rows.filter fun r => r.nodeId ≠ m.nodeId).map (·.nodeId)) (H.run .persist k)

def merge (records : List WireRecord) (k : τ) : τ :=
  H.atomic (.merge records) fun m _ =>
    let (_, changed, evicted) := MembershipStore.mergeLoop m.nodeId records m.roster false false
    if evicted then H.becomeStandalone k else if changed then H.run .persist k else k

/-- `push_to_roster` with given records. -/
def pushRecords (records : List WireRecord) (k : τ) : τ :=
  H.atomic .read fun m _ =>
    let cid := m.clusterId
    H.atomic .read fun m _ =>
      each (m.targets cid)
        (fun rec k => H.atomic .read fun m _ => H.tell (.sync rec.address records (m.peerToken rec.nodeId)) k) k

/-- `push_to_roster` of the node's own record. -/
def pushOwn (k : τ) : τ :=
  H.atomic .own fun m now => H.pushRecords [(m.myRecord now).1.toDict] k

def reconcileConnections (k : τ) : τ :=
  H.atomic .read fun m _ =>
    match m.clusterId with
    | none => k
    | some _ =>
      H.atomic .read fun m _ =>
        let desired := m.desiredPeers
        H.atomic .read fun m _ =>
          let actual := m.store.sessions.rows.map (·.nodeId)
          each (desired.filter fun p => p.1 ∉ actual) (fun p => H.run (.connect p.2))
            (each (actual.filter fun n => n ∉ desired.map (·.1))
              (fun n k => H.atomic .read fun m _ => if m.isRemovedOrAbsent n then H.run (.disconnect n) k else k) k)

def leaveOld (old : String) (k : τ) : τ :=
  H.atomic .read fun m _ =>
    let members := m.members (some old)
    each members (fun rec k => H.atomic .read fun m _ => H.tell (.evictSelf rec.address (m.peerToken rec.nodeId)) k)
      (H.disconnectAll (members.map (·.nodeId)) (H.run (.forget old) k))

/-- The second half of `adopt`, from the minting of the version on. -/
def enter (clusterId : String) (roster : List WireRecord) (k : JoinResponse → τ) : τ :=
  H.atomic (.ordain clusterId) fun m now =>
    let version := (m.store.nextVersion now).1
    H.run (.assign m.nodeId clusterId m.store.advertise version) <| H.merge roster <| H.run .persist <| H.reconcileConnections <| H.pushOwn <|
      k (.accepted m.nodeId clusterId version)

def adopt (clusterId : String) (roster : List WireRecord) (k : JoinResponse → τ) : τ :=
  H.atomic .read fun m _ =>
    match m.clusterId with
    | none => H.enter clusterId roster k
    | some old =>
      if old = clusterId then H.enter clusterId roster k else H.leaveOld old (H.enter clusterId roster k)

def handleJoin (body : JoinRequest) (k : JoinResponse → τ) : τ :=
  H.atomic .read fun m _ =>
    if !m.joinAuthorized body.token then k (.rejected "unauthorized")
    else if body.clusterId = "" then k (.rejected "cluster_id required")
    else H.adopt body.clusterId body.roster k

def handleEvictSelf (fromNode : String) (token : Option String) (k : τ) : τ :=
  H.atomic .read fun m _ =>
    if fromNode = "" || !m.store.authed fromNode token then k
    else H.atomic (.release fromNode) fun m now =>
      H.run (.disconnect fromNode) <| H.run .persist <| H.pushRecords [(m.released now fromNode).1.toDict] k

def handleEvicted (fromNode : String) (token : Option String) (k : τ) : τ :=
  H.atomic .read fun m _ => if !m.store.authed fromNode token then k else H.becomeStandalone k

def serveSetSync (fromNode : String) (records : List WireRecord) (token : Option String) (k : τ) : τ :=
  H.atomic .read fun m _ => if !m.store.authed fromNode token then k else H.merge records k

/-- The loop of `set_add`. -/
def addMembers (cid : String) (roster : List WireRecord) (token : Option String) :
    List Member → List AddResult → (List AddResult → τ) → τ
  | [], results, k => k results
  | member :: rest, results, k =>
    if member.address = "" then addMembers cid roster token rest (results ++ [.addressRequired]) k
    else H.join member.address { clusterId := cid, roster, token } fun answer =>
      match answer with
      | .error _ => addMembers cid roster token rest (results ++ [.unreachable member.address]) k
      | .ok (.rejected error) => addMembers cid roster token rest (results ++ [.rejected member.address error]) k
      | .ok (.accepted nodeId _ version) =>
        H.run (.assign nodeId cid member.address version) <|
          addMembers cid roster token rest (results ++ [.added member.address nodeId]) k

/-- `set_add`; `newId` is the id of the cluster that it forms if there is none. -/
def setAdd (members : List Member) (token : Option String) (newId : String)
    (k : Option String → List AddResult → τ) : τ :=
  H.atomic (.form newId) fun m now =>
    let cid := m.clusterId.getD newId
    H.addMembers cid (m.form now newId).snapshot token members [] fun results =>
      H.run .persist <| H.reconcileConnections <|
        H.atomic .read fun m _ =>
          H.pushRecords (m.roster.rows.map MembershipRecord.toDict) <|
            H.atomic .read fun m _ => k m.clusterId results

/-- The loop of `set_remove`, with the tombstones written so far; the flags say which
members were named by a node id. -/
def removeMembers : List Member → List Bool → List WireRecord → (List Bool → List WireRecord → τ) → τ
  | [], results, tombs, k => k results tombs
  | member :: rest, results, tombs, k =>
    if member.nodeId = "" then removeMembers rest (results ++ [false]) tombs k
    else H.atomic (.bury member.nodeId member.address) fun m now =>
      let tomb := (m.buried now member.nodeId member.address).1
      H.atomic .read fun m _ =>
        H.tell (.evict tomb.address m.clusterId (m.peerToken member.nodeId)) <|
          H.run (.disconnect member.nodeId) <|
            removeMembers rest (results ++ [true]) (tombs ++ [tomb.toDict]) k

def setRemove (members : List Member) (k : List Bool → τ) : τ :=
  H.removeMembers members [] [] fun results tombs =>
    H.run .persist <| if tombs = [] then k results else H.pushRecords tombs (k results)

/-- Run a command; `answer` is what follows if it was a `join`. -/
def serve (command : Command) (answer : JoinResponse → τ) (k : τ) : τ :=
  match command with
  | .setAdd members token newId => H.setAdd members token newId fun _ _ => k
  | .setRemove members => H.setRemove members fun _ => k
  | .join body => H.handleJoin body answer
  | .leave fromNode token => H.handleEvictSelf fromNode token k
  | .evicted fromNode token => H.handleEvicted fromNode token k
  | .setSync fromNode records token => H.serveSetSync fromNode records token k
  | .merge records => H.merge records k
  | .reconcileConnections => H.reconcileConnections k
  | .collect => H.run .collect k

end Host

end AgentProtocol
