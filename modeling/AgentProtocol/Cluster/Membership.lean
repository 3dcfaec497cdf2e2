-- SUMMARY: The membership control plane of a node: its roster, LWW merge, join, leave and eviction, and the peer-facing handlers.
import AgentProtocol.Cluster.Store

/-!
# Membership

`MembershipStore` holds one record per node, its own included, and decides which
cluster the node is in and with whom it should have sessions. Its records travel
apart from service records and are not subject to namespace auth: the peer-facing
handlers are gated by the session secret, and `join` by an admin token.

Calls to other nodes whose outcome is ignored by the source (pushes, farewells) still
go through the transport, so that the far end sees them.
-/

namespace AgentProtocol

open Lib

namespace ClusterStore

/-! ## Versions for membership records -/

def nextVersion (s : ClusterStore) (now : Now) : Version × ClusterStore :=
  let (ts, s) := s.nextTs now
  (⟨ts, s.nodeId⟩, s)

/-- `next_version_after`: also later than `floorMs`. -/
def nextVersionAfter (s : ClusterStore) (now : Now) (floorMs : ℤ) : Version × ClusterStore :=
  let ts := max (max now.wallMs (s.state.versionClock + 1)) (floorMs + 1)
  (⟨ts, s.nodeId⟩, { s with state := { s.state with versionClock := ts } })

def observeVersion (s : ClusterStore) (ms : ℤ) : ClusterStore :=
  { s with state := { s.state with versionClock := max s.state.versionClock ms } }

theorem lt_nextVersionAfter (s : ClusterStore) (now : Now) (floorMs : ℤ) : floorMs < (s.nextVersionAfter now floorMs).1.ms :=
  lt_of_lt_of_le (lt_add_one floorMs) (le_max_right _ _)

end ClusterStore

def MembershipRecord.toDict (r : MembershipRecord) : WireRecord := .record r

/-- The peer RPCs of the control plane that the handlers below make, on top of those of
the data plane. -/
structure MembershipTransport (σ : Type) extends Transport σ where
  evictSelf : String → String → Option String → σ → Except RpcError Unit × σ
  setSync : String → String → List WireRecord → Option String → σ → Except RpcError Unit × σ

structure JoinRequest where
  clusterId : String
  roster : List WireRecord := []
  token : Option String := none

inductive JoinResponse where
  | rejected (error : String)
  | accepted (nodeId clusterId : String) (version : Version)

structure MembershipStore where
  store : ClusterStore
  /-- Own record and peers', tombstones included. -/
  roster : Table MembershipRecord.nodeId := ∅

namespace MembershipStore

variable {σ : Type} (t : MembershipTransport σ)

/-! ## State -/

def nodeId (m : MembershipStore) : String := m.store.nodeId

def clusterId (m : MembershipStore) : Option String := (m.roster.get? m.nodeId).bind (·.clusterId)

/-- `my_record`, which creates the record if there is none. -/
def myRecord (m : MembershipStore) (now : Now) : MembershipRecord × MembershipStore :=
  match m.roster.get? m.nodeId with
  | some own => (own, m)
  | none =>
    let (version, store) := m.store.nextVersion now
    let own : MembershipRecord :=
      { nodeId := m.nodeId, clusterId := none, address := m.store.advertise, version }
    (own, { store, roster := m.roster.insert own })

def persist (m : MembershipStore) : MembershipStore :=
  let own := m.roster.get? m.nodeId
  let cid := own.bind (·.clusterId)
  let records := m.roster.rows.filter fun r => r.nodeId ≠ m.nodeId && r.clusterId = cid
  let state := { m.store.state with
    clusterId := cid
    lastRoster := records.map MembershipRecord.toDict
    myMembershipVersion := own.map (·.version) }
  { m with store := { m.store with state }.saveState }

/-- Disconnect several peers. -/
def disconnectAll (m : MembershipStore) (now : Now) (nodes : List String) : MembershipStore :=
  { m with store := nodes.foldl (fun s node => (s.disconnectPeer now node).2) m.store }

def becomeStandalone (m : MembershipStore) (now : Now) : MembershipStore :=
  let members := (m.roster.rows.filter fun r => r.nodeId ≠ m.nodeId).map (·.nodeId)
  (disconnectAll { m with roster := ∅ } now members).persist

/-! ## Merging -/

def newer (roster : Table MembershipRecord.nodeId) (r : MembershipRecord) : Bool :=
  versionNewer r.version ((roster.get? r.nodeId).map (·.version))

/-- The loop of `merge`: the roster, whether it changed, and whether a removal of this
node itself was among the records. -/
def mergeLoop (own : String) : List WireRecord → Table MembershipRecord.nodeId → Bool → Bool →
    Table MembershipRecord.nodeId × Bool × Bool
  | [], roster, changed, evicted => (roster, changed, evicted)
  | raw :: rest, roster, changed, evicted =>
    match raw.fromDict with
    | none => mergeLoop own rest roster changed evicted
    | some r =>
      if !newer roster r then mergeLoop own rest roster changed evicted
      else if r.nodeId = own then mergeLoop own rest roster changed (evicted || r.removed)
      else mergeLoop own rest (roster.insert r) true evicted

def merge (m : MembershipStore) (now : Now) (records : List WireRecord) : Bool × MembershipStore :=
  let (roster, changed, evicted) := mergeLoop m.nodeId records m.roster false false
  let m := { m with roster }
  if evicted then (true, m.becomeStandalone now)
  else if changed then (true, m.persist)
  else (false, m)

def versionMap (m : MembershipStore) : List (String × Version) :=
  m.roster.rows.map fun r => (r.nodeId, r.version)

def recordsFor (m : MembershipStore) (nodeIds : List String) : List WireRecord :=
  nodeIds.filterMap fun n => (m.roster.get? n).map MembershipRecord.toDict

/-! ## Sessions and pushes -/

def peerToken (m : MembershipStore) (node : String) : Option String :=
  (m.store.sessions.get? node).bind (·.token)

/-- The live members of a cluster other than this node. -/
def members (m : MembershipStore) (cid : Option String) : List MembershipRecord :=
  m.roster.rows.filter fun r => r.nodeId ≠ m.nodeId && r.clusterId = cid && !r.removed

/-- `push_to_roster` with given records; failures are ignored. -/
def pushRecords (m : MembershipStore) (records : List WireRecord) (r : σ) : σ :=
  ((m.members m.clusterId).filter fun rec => rec.address ≠ "").foldl
    (fun r rec => (t.setSync rec.address m.nodeId records (m.peerToken rec.nodeId) r).2) r

/-- `push_to_roster` of our own record. -/
def pushOwn (m : MembershipStore) (now : Now) (r : σ) : MembershipStore × σ :=
  let (own, m) := m.myRecord now
  (m, m.pushRecords t [own.toDict] r)

def desiredPeers (m : MembershipStore) : List (String × String) :=
  match m.clusterId with
  | none => []
  | some cid => ((m.members (some cid)).filter fun r => r.address ≠ "").map fun r => (r.nodeId, r.address)

def isRemovedOrAbsent (m : MembershipStore) (node : String) : Bool :=
  match m.roster.get? node with
  | none => true
  | some r => r.removed || decide (r.clusterId ≠ m.clusterId)

/-- `reconcile_connections`: connect to the members without a session, then drop the
sessions that the roster has no use for. -/
def reconcileConnections (m : MembershipStore) (now : Now) (r : σ) : MembershipStore × σ :=
  match m.clusterId with
  | none => (m, r)
  | some _ =>
    let actual := m.store.sessions.rows.map (·.nodeId)
    let missing := m.desiredPeers.filter fun p => p.1 ∉ actual
    let (store, r) := missing.foldl
      (fun acc p => (acc.1.connectPeer t.toTransport now p.2 [] none acc.2).2) (m.store, r)
    let m := { m with store }
    let unwanted := actual.filter fun n => n ∉ m.desiredPeers.map (·.1) && m.isRemovedOrAbsent n
    (m.disconnectAll now unwanted, r)

/-! ## Handlers -/

/-- `leave_old`: say farewell to the members of the old cluster, disconnect them, and
forget that cluster's records. -/
def leaveOld (m : MembershipStore) (now : Now) (old : String) (r : σ) : MembershipStore × σ :=
  let members := m.members (some old)
  let r := members.foldl
    (fun r rec => (t.evictSelf rec.address m.nodeId (m.peerToken rec.nodeId) r).2) r
  let m := m.disconnectAll now (members.map (·.nodeId))
  ({ m with roster := m.roster.filter fun rec => rec.nodeId = m.nodeId || rec.clusterId ≠ some old }, r)

def adopt (m : MembershipStore) (now : Now) (clusterId : String) (roster : List WireRecord) (r : σ) :
    JoinResponse × MembershipStore × σ :=
  let (m, r) := match m.clusterId with
    | none => (m, r)
    | some old => if old = clusterId then (m, r) else m.leaveOld t now old r
  let (version, store) := m.store.nextVersion now
  let own : MembershipRecord :=
    { nodeId := m.nodeId, clusterId := some clusterId, address := m.store.advertise, version }
  let (_, m) := merge { store, roster := m.roster.insert own } now roster
  let (m, r) := m.persist.reconcileConnections t now r
  let (m, r) := m.pushOwn t now r
  (.accepted m.nodeId clusterId version, m, r)

/-- `_join_authorized`: with auth, an admin token is needed. -/
def joinAuthorized (m : MembershipStore) (token : Option String) : Bool :=
  m.store.authStore.isNone || (resolveContext m.store.authStore token).any (·.isAdmin)

def handleJoin (m : MembershipStore) (now : Now) (body : JoinRequest) (r : σ) :
    JoinResponse × MembershipStore × σ :=
  if !m.joinAuthorized body.token then (.rejected "unauthorized", m, r)
  else if body.clusterId = "" then (.rejected "cluster_id required", m, r)
  else m.adopt t now body.clusterId body.roster r

/-- `handle_evict_self`: a peer leaves, so it gets a tombstone that wins over its record. -/
def handleEvictSelf (m : MembershipStore) (now : Now) (fromNode : String) (token : Option String) (r : σ) :
    Bool × MembershipStore × σ :=
  if fromNode = "" || !m.store.authed fromNode token then (false, m, r)
  else
    let cur := m.roster.get? fromNode
    let (version, store) := m.store.nextVersionAfter now ((cur.map (·.version.ms)).getD 0)
    let tomb : MembershipRecord :=
      { nodeId := fromNode
        clusterId := match cur with
          | some rec => rec.clusterId
          | none => m.clusterId
        address := (cur.map (·.address)).getD ""
        version, removed := true }
    let m : MembershipStore := { store, roster := m.roster.insert tomb }
    let m := (m.disconnectAll now [fromNode]).persist
    (true, m, m.pushRecords t [tomb.toDict] r)

/-- `handle_evicted`: we were removed. -/
def handleEvicted (m : MembershipStore) (now : Now) (fromNode : String) (token : Option String) :
    Bool × MembershipStore :=
  if !m.store.authed fromNode token then (false, m) else (true, m.becomeStandalone now)

def serveSetDigest (m : MembershipStore) (fromNode : String) (token : Option String) :
    List (String × Version) :=
  if !m.store.authed fromNode token then [] else m.versionMap

def serveSetPull (m : MembershipStore) (fromNode : String) (nodeIds : List String) (token : Option String) :
    List WireRecord :=
  if !m.store.authed fromNode token then [] else m.recordsFor nodeIds

def serveSetSync (m : MembershipStore) (now : Now) (fromNode : String) (records : List WireRecord)
    (token : Option String) : Bool × MembershipStore :=
  if !m.store.authed fromNode token then (false, m) else (true, (m.merge now records).2)

/-! ## What merging leaves -/

/-- The records of a batch that parse. -/
def validRecords (records : List WireRecord) : List MembershipRecord := records.filterMap WireRecord.fromDict

theorem validRecords_cons {r : MembershipRecord} {raw : WireRecord} (h : raw.fromDict = some r)
    (rest : List WireRecord) : validRecords (raw :: rest) = r :: validRecords rest :=
  List.filterMap_cons_some h

variable {roster : Table MembershipRecord.nodeId} {r r' : MembershipRecord}

theorem newer_insert_of_ne (h : r'.nodeId ≠ r.nodeId) : newer (roster.insert r') r = newer roster r := by
  simp only [newer, Table.get?_insert_of_ne h]

theorem newer_insert_self (roster : Table MembershipRecord.nodeId) (r : MembershipRecord) :
    newer (roster.insert r) r = false := by
  simp [newer, versionNewer, Lww.newer]

theorem newer_insert (hwins : newer roster r' = true) (h : newer roster r = false) : newer (roster.insert r') r = false := by
  by_cases hnode : r'.nodeId = r.nodeId
  · obtain ⟨v, hv, hle⟩ := Lww.newer_eq_false.mp h
    have hlt : v < r'.version := by
      rw [newer, hnode, hv] at hwins
      exact Lww.newer_some.mp hwins
    rw [newer, ← hnode, Table.get?_insert_self]
    exact Lww.newer_eq_false.mpr ⟨r'.version, rfl, hle.trans hlt.le⟩
  · rw [newer_insert_of_ne hnode, h]

variable (own : String) (records : List WireRecord)

theorem mergeLoop_loses : ∀ (roster : Table MembershipRecord.nodeId) (changed evicted : Bool), newer roster r = false →
      newer (mergeLoop own records roster changed evicted).1 r = false := by
  induction records with
  | nil => exact fun _ _ _ h => h
  | cons raw rest ih =>
    intro roster changed evicted h
    unfold mergeLoop
    split
    · exact ih _ _ _ h
    · split
      · exact ih _ _ _ h
      · rename_i hwins
        split
        · exact ih _ _ _ h
        · exact ih _ _ _ (newer_insert (by simpa using hwins) h)

theorem mergeLoop_loses_of_mem (own : String) (hnode : r.nodeId ≠ own) (records : List WireRecord) :
    ∀ (roster : Table MembershipRecord.nodeId) (changed evicted : Bool), r ∈ validRecords records →
      newer (mergeLoop own records roster changed evicted).1 r = false := by
  induction records with
  | nil => exact fun _ _ _ h => absurd h (by simp [validRecords])
  | cons raw rest ih =>
    intro roster changed evicted hmem
    unfold mergeLoop
    split
    · rename_i hraw
      exact ih _ _ _ (by simpa [validRecords, hraw] using hmem)
    · rename_i r' hraw
      have hcases : r = r' ∨ r ∈ validRecords rest := by
        rw [validRecords_cons hraw] at hmem
        exact List.mem_cons.mp hmem
      split
      · rename_i hloses
        rcases hcases with rfl | hrest
        · exact mergeLoop_loses own rest _ _ _ (by simpa using hloses)
        · exact ih _ _ _ hrest
      · rcases hcases with rfl | hrest
        · rw [if_neg hnode]
          exact mergeLoop_loses own rest _ _ _ (newer_insert_self roster r)
        · split
          · exact ih _ _ _ hrest
          · exact ih _ _ _ hrest

theorem mergeLoop_roster_iff (roster : Table MembershipRecord.nodeId) (changed evicted : Bool) :
    (mergeLoop own records roster changed evicted).1 = roster ↔
      ∀ r ∈ validRecords records, r.nodeId ≠ own → newer roster r = false := by
  constructor
  · intro h r hr hnode
    have hloses := mergeLoop_loses_of_mem own hnode records roster changed evicted hr
    rwa [h] at hloses
  · intro h
    induction records generalizing evicted with
    | nil => rfl
    | cons raw rest ih =>
      unfold mergeLoop
      split
      · rename_i hraw
        exact ih _ fun r hr => h r (by simpa [validRecords, hraw] using hr)
      · rename_i r' hraw
        have hrest : ∀ r ∈ validRecords rest, r.nodeId ≠ own → newer roster r = false := by
          intro r hr
          apply h r
          rw [validRecords_cons hraw]
          exact List.mem_cons_of_mem _ hr
        split
        · exact ih _ hrest
        · rename_i hwins
          split
          · exact ih _ hrest
          · rename_i hnode
            have hloses := h r' (by simp [validRecords_cons hraw]) hnode
            simp [hloses] at hwins

theorem mergeLoop_evicted : ∀ (roster : Table MembershipRecord.nodeId) (changed evicted : Bool),
      (mergeLoop own records roster changed evicted).2.2 =
        (evicted || (validRecords records).any fun r => newer roster r && decide (r.nodeId = own) && r.removed) := by
  induction records with
  | nil => simp [mergeLoop, validRecords]
  | cons raw rest ih =>
    intro roster changed evicted
    unfold mergeLoop
    split
    · rename_i hraw
      simp [ih, validRecords, hraw]
    · rename_i r' hraw
      rw [validRecords_cons hraw, List.any_cons]
      split
      · rename_i hloses
        have hloses' : newer roster r' = false := by simpa using hloses
        simp [ih, hloses']
      · rename_i hwins
        have hwins' : newer roster r' = true := by simpa using hwins
        split
        · rename_i hnode
          simp [ih, hwins', hnode, Bool.or_assoc]
        · rename_i hnode
          rw [ih]
          have hsame : ∀ r : MembershipRecord, (newer (roster.insert r') r && decide (r.nodeId = own) && r.removed) =
              (newer roster r && decide (r.nodeId = own) && r.removed) := by
            intro r
            by_cases hr : r.nodeId = own
            · rw [newer_insert_of_ne (fun h => hnode (h.trans hr))]
            · simp [hr]
          simp [hsame, hnode]

end MembershipStore

end AgentProtocol
