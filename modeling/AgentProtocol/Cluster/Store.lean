-- SUMMARY: The cluster store: versioning, indexes, peer-facing handlers, reconciliation, liveness, tombstone collection and the read path.
import AgentProtocol.Cluster.Merkle

/-!
# Cluster store

`cluster/store.py`, `cluster/peer.py` and `cluster/auth_handshake.py`. A
`ClusterStore` is the whole state of one registry's replication module, with the
registry it replicates and the last content of `cluster_state.json` (`saved`).
Operations return their result together with the store after the call; an
operation that raises still returns the store as far as it got.

The calls a store makes on its peers go through a `Transport σ`, which threads the
state `σ` of whatever is at the other end. Random session secrets are arguments.
-/

namespace AgentProtocol

open Lib

/-! ## Wire types -/

inductive RpcError where
  | transportError
  | validationError

structure OpenRequest where
  nodeId : String
  address : String := ""
  namespaces : List String := []
  token : Option String := none

structure OpenResponse where
  nodeId : String
  accepted : List String
  ephemeral : List String
  sessionToken : Option String

structure UpdateCounts where
  accepted : ℕ
  received : ℕ
  rejected : ℕ

structure ReconcileCounts where
  pulled : ℕ
  pushed : ℕ

abbrev BucketHashes := Dict ℕ (List UInt8)

/-- The peer RPCs of the data plane, against a far end with state `σ`. The first
two arguments are the peer's address and the caller's node id. -/
structure Transport (σ : Type) where
  openSession : String → OpenRequest → σ → Except RpcError OpenResponse × σ
  merkle : String → String → List String → Option String → σ → Except RpcError BucketHashes × σ
  digest : String → String → List String → Option String → List ℕ → σ →
    Except RpcError (List (Key × Version)) × σ
  pull : String → String → List Key → Option String → σ → Except RpcError (List WireEnvelope) × σ
  updates : String → String → List WireEnvelope → Option String → σ →
    Except RpcError UpdateCounts × σ

/-! ## State -/

structure Peer where
  nodeId : String
  address : String
  namespaces : List String
  lastSeen : ℚ
  /-- The session secret, present when the side that answered the handshake has
  auth enabled. -/
  token : Option String := none

structure ClusterStore where
  state : ClusterState
  saved : ClusterState := state
  config : ClusterConfig := {}
  registry : Option RegistryService := some {}
  advertise : String := ""
  authStore : Option AuthStore := none
  foreign : Table SyncEnvelope.key := ∅
  sessions : Table Peer.nodeId := ∅
  /-- Per origin, the monotonic time until which its records are refused. -/
  evictedUntil : Dict String ℚ := ∅

/-- `sorted(set(...))`. -/
def sortedSet (l : List String) : List String := l.dedup.insertionSort (· ≤ ·)

/-! ## Handshake authorization -/

/-- The caller's auth context; an empty, missing or refused token gives none. -/
def resolveContext (authStore : Option AuthStore) (token : Option String) : Option AuthContext :=
  match authStore, token with
  | some store, some t => if t = "" then none else store.authenticate t
  | _, _ => none

/-- Does the context grant access to a protected namespace that exists here? -/
def AuthContext.grants (ctx : AuthContext) (ns : String) : Bool :=
  ctx.isAdmin || match ctx.namespaces with
    | none => false
    | some l => decide (ns ∈ l)

def existingNamespaces : Option RegistryService → List String
  | none => []
  | some reg => reg.listDatasets

/-- One round of the loop in `authorize_namespaces`. -/
def acceptsNamespace (registry : Option RegistryService) (authStore : Option AuthStore)
    (ctx : Option AuthContext) (ns : String) : Bool :=
  match registry with
  | some reg =>
    if ns ∈ reg.listDatasets then
      authStore.isNone || !reg.isAuthRequired ns || ctx.any (·.grants ns)
    else authStore.isNone || ctx.any (·.isAdmin)
  | none => authStore.isNone || ctx.any (·.isAdmin)

/-- `authorize_namespaces`: the accepted namespaces, and those among them that the
receiver does not host itself. -/
def authorizeNamespaces (registry : Option RegistryService) (authStore : Option AuthStore)
    (requested : List String) (token : Option String) : List String × List String :=
  let accepted := requested.filter (acceptsNamespace registry authStore (resolveContext authStore token))
  (accepted, accepted.filter (· ∉ existingNamespaces registry))

namespace ClusterStore

def nodeId (s : ClusterStore) : String := s.state.nodeId

def saveState (s : ClusterStore) : ClusterStore := { s with saved := s.state }

/-! ## Versioning -/

/-- `_next_ts`: monotonic even if the wall clock steps back. -/
def nextTs (s : ClusterStore) (now : Now) : ℤ × ClusterStore :=
  let ts := max now.wallMs (s.state.versionClock + 1)
  (ts, { s with state := { s.state with versionClock := ts } })

def setLocalVersion (s : ClusterStore) (k : LocalKey) (v : Version) : ClusterStore :=
  { s with state := { s.state with localVersions := s.state.localVersions.set k v } }

/-- The loop body of `_ensure_local_versions`; the flag says whether to save. -/
def ensureVersion (now : Now) (acc : ClusterStore × Bool) (item : String × RegistryEntry) :
    ClusterStore × Bool :=
  let (s, changed) := acc
  let k := makeKey item.1 item.2.serviceId
  if item.2.source = .ephemeral then (s, changed)
  else if s.state.localVersions.contains k || s.state.tombstones.contains k then (s, changed)
  else
    let (ts, s) := s.nextTs now
    (s.setLocalVersion k ⟨ts, s.nodeId⟩, true)

/-- Every entry of every dataset directory, in the order the loops visit them. -/
def allEntries (reg : RegistryService) : List (String × RegistryEntry) :=
  reg.listDatasets.flatMap fun ds => (reg.listEntries ds).map fun e => (ds, e)

def ensureLocalVersions (s : ClusterStore) (now : Now) : ClusterStore :=
  match s.registry with
  | none => s
  | some reg =>
    let (s, changed) := (allEntries reg).foldl (ensureVersion now) (s, false)
    if changed then s.saveState else s

/-! ## Indexes and envelopes -/

/-- `not namespaces or ds in namespaces`. -/
def inScope (namespaces : List String) (ds : String) : Bool :=
  decide (namespaces = []) || decide (ds ∈ namespaces)

/-- Versions of the live records of one dataset; session-level entries are not
part of any index. -/
def liveRows (s : ClusterStore) (reg : RegistryService) (ds : String) : List (Key × Version) :=
  (reg.listEntries ds).filterMap fun e =>
    if e.source = .ephemeral then none
    else (s.state.localVersions.lookup (makeKey ds e.serviceId)).map fun v =>
      (⟨ds, s.nodeId, e.serviceId⟩, v)

def tombstoneRows (s : ClusterStore) (namespaces : List String) : List (Key × Version) :=
  s.state.tombstones.rows.filterMap fun p =>
    let (ds, sid) := splitKey p.1
    if inScope namespaces ds then some (⟨ds, s.nodeId, sid⟩, p.2.version) else none

/-- `_local_index` once every local record has a version. -/
def versionedLocalIndex (s : ClusterStore) (namespaces : List String) : Index :=
  match s.registry with
  | none => ∅
  | some reg =>
    let scope := reg.listDatasets.filter (inScope namespaces)
    Dict.ofList (scope.flatMap (s.liveRows reg) ++ s.tombstoneRows namespaces)

/-- `_full_index` once every local record has a version. -/
def versionedIndex (s : ClusterStore) (namespaces : List String) : Index :=
  (s.versionedLocalIndex namespaces).insertAll
    ((s.foreign.rows.filter fun env => inScope namespaces env.dataset).map
      fun env => (env.key, env.version))

def fullIndex (s : ClusterStore) (now : Now) (namespaces : List String) : Index × ClusterStore :=
  let s := s.ensureLocalVersions now
  (s.versionedIndex namespaces, s)

def wrappedMap (s : ClusterStore) (dataset : String) : Dict String ServiceRow :=
  match s.registry with
  | none => ∅
  | some reg => Dict.ofList ((reg.listServices dataset).map fun row => (row.id, row))

def buildLocalEnvelope (s : ClusterStore) (dataset sid : String) : Option SyncEnvelope :=
  let k := makeKey dataset sid
  match s.state.tombstones.lookup k with
  | some tomb => some
      { dataset, serviceId := sid, originId := s.nodeId, version := tomb.version, tombstone := true }
  | none =>
    match s.state.localVersions.lookup k, s.registry with
    | some v, some reg =>
      (reg.getEntry dataset sid).map fun entry =>
        { dataset, serviceId := sid, originId := s.nodeId, version := v, tombstone := false
          payload := some { entry := some entry, wrapped := (s.wrappedMap dataset).lookup sid } }
    | _, _ => none

def buildEnvelopeForKey (s : ClusterStore) (key : Key) : Option SyncEnvelope :=
  if key.originId = s.nodeId then s.buildLocalEnvelope key.dataset key.serviceId
  else s.foreign.get? key

/-! ## Inbound records -/

/-- Is the origin still in its post-eviction cooldown? -/
def suppressed (s : ClusterStore) (now : Now) (origin : String) : Bool :=
  match s.evictedUntil.lookup origin with
  | none => false
  | some until_ => decide (now.mono < until_)

/-- `apply_inbound`: store the envelope iff it is strictly newer than what we
have. Our own records and those of suppressed origins are refused. -/
def applyInbound (s : ClusterStore) (now : Now) (env : SyncEnvelope) : Bool × ClusterStore :=
  if env.originId = s.nodeId then (false, s)
  else if s.suppressed now env.originId then (false, s)
  else if !versionNewer env.version ((s.foreign.get? env.key).map SyncEnvelope.version) then (false, s)
  else (true, { s with foreign := s.foreign.insert env })

/-! ## Handlers -/

/-- `handle_open`. `secret` is what `secrets.token_hex(16)` returns; it is handed
out only if this registry has auth enabled. -/
def handleOpen (s : ClusterStore) (now : Now) (secret : String) (body : OpenRequest) :
    OpenResponse × ClusterStore :=
  let candidate := sortedSet (body.namespaces ++ existingNamespaces s.registry)
  let (accepted, ephemeral) := authorizeNamespaces s.registry s.authStore candidate body.token
  let sessionToken := if s.authStore.isSome then some secret else none
  ({ nodeId := s.nodeId, accepted, ephemeral, sessionToken },
    { s with
      sessions := s.sessions.insert
        { nodeId := body.nodeId, address := body.address, namespaces := accepted
          lastSeen := now.mono, token := sessionToken }
      evictedUntil := s.evictedUntil.erase body.nodeId })

/-- `_touch_peer`: refresh the HOLD timer of a peer we just heard from. -/
def touchPeer (s : ClusterStore) (now : Now) (node : String) : ClusterStore :=
  match s.sessions.get? node with
  | none => s
  | some peer => { s with sessions := s.sessions.insert { peer with lastSeen := now.mono } }

def publicNamespaces (s : ClusterStore) : List String :=
  match s.registry with
  | none => []
  | some reg => reg.listDatasets.filter fun ds => s.authStore.isNone || !reg.isAuthRequired ds

/-- `_authed`: without auth everybody is; with auth the presented token must be the
secret of the session stored for `fromNode`. -/
def authed (s : ClusterStore) (fromNode : String) (token : Option String) : Bool :=
  if s.authStore.isNone then true
  else match s.sessions.get? fromNode with
    | none => false
    | some sess => sess.token.isSome && decide (token = sess.token)

/-- `_allowed_for`: the session's namespaces for an authenticated session, the
public ones for anybody else, cut down to the requested ones. -/
def allowedFor (s : ClusterStore) (fromNode : String) (requested : List String)
    (token : Option String) : List String :=
  let base :=
    match s.authed fromNode token, s.sessions.get? fromNode with
    | true, some sess => sess.namespaces
    | _, _ => s.publicNamespaces
  if requested = [] then base else base.filter (· ∈ requested)

/-- The rows of the index that a caller may see. -/
def visibleIndex (s : ClusterStore) (now : Now) (fromNode : String) (requested : List String)
    (token : Option String) : Index × ClusterStore :=
  let s := s.touchPeer now fromNode
  let allowed := s.allowedFor fromNode requested token
  let (index, s) := s.fullIndex now (sortedSet allowed)
  (index.filter fun p => p.1.dataset ∈ allowed, s)

def serveDigest (s : ClusterStore) (now : Now) (fromNode : String) (namespaces : List String)
    (token : Option String) (buckets : Option (List ℕ)) : List (Key × Version) × ClusterStore :=
  let (index, s) := s.visibleIndex now fromNode namespaces token
  match buckets with
  | none => (index.rows, s)
  | some bs => ((Merkle.inBuckets index s.config.merkleBuckets bs).rows, s)

def serveMerkle (s : ClusterStore) (now : Now) (fromNode : String) (namespaces : List String)
    (token : Option String) : BucketHashes × ClusterStore :=
  let (index, s) := s.visibleIndex now fromNode namespaces token
  (Merkle.bucketHashes index s.config.merkleBuckets, s)

def servePull (s : ClusterStore) (now : Now) (fromNode : String) (keys : List Key)
    (token : Option String) : List WireEnvelope × ClusterStore :=
  let s := s.touchPeer now fromNode
  let allowed := s.allowedFor fromNode [] token
  ((keys.filter (·.dataset ∈ allowed)).filterMap fun key =>
    (s.buildEnvelopeForKey key).map SyncEnvelope.modelDump, s)

/-- `_may_accept`: may `fromNode` write records of this namespace here? -/
def mayAccept (s : ClusterStore) (fromNode dataset : String) (token : Option String) : Bool :=
  if s.authStore.isNone then true
  else if s.authed fromNode token &&
      (s.sessions.get? fromNode).any (fun sess => decide (dataset ∈ sess.namespaces)) then true
  else match s.registry with
    | none => false
    | some reg => decide (dataset ∈ reg.listDatasets) && !reg.isAuthRequired dataset

/-- The loop of `serve_updates`. A malformed envelope raises, which leaves the ones
before it applied. -/
def applyUpdates (now : Now) (fromNode : String) (token : Option String) :
    List WireEnvelope → ClusterStore → UpdateCounts → Except RpcError UpdateCounts × ClusterStore
  | [], s, counts => (.ok counts, s)
  | raw :: rest, s, counts =>
    match raw.modelValidate with
    | none => (.error .validationError, s)
    | some env =>
      if !s.mayAccept fromNode env.dataset token then
        applyUpdates now fromNode token rest s { counts with rejected := counts.rejected + 1 }
      else
        let (stored, s) := s.applyInbound now env
        applyUpdates now fromNode token rest s
          { counts with accepted := counts.accepted + stored.toNat }

def serveUpdates (s : ClusterStore) (now : Now) (fromNode : String) (envelopes : List WireEnvelope)
    (token : Option String) : Except RpcError UpdateCounts × ClusterStore :=
  applyUpdates now fromNode token envelopes (s.touchPeer now fromNode)
    { accepted := 0, received := envelopes.length, rejected := 0 }

def handleKeepalive (s : ClusterStore) (now : Now) (fromNode : String) (token : Option String) :
    Bool × ClusterStore :=
  if !s.authed fromNode token then (false, s) else (true, s.touchPeer now fromNode)

/-! ## Eviction, suppression and collection -/

/-- `disconnect_peer`: the single eviction path. -/
def disconnectPeer (s : ClusterStore) (now : Now) (node : String) : Bool × ClusterStore :=
  ((s.sessions.get? node).isSome,
    { s with
      sessions := s.sessions.erase node
      foreign := s.foreign.filter fun env => env.originId ≠ node
      evictedUntil := s.evictedUntil.set node (now.mono + s.config.tombstoneRetention) })

/-- The sessions whose direct link has been silent past `hold_timeout`. -/
def staleSessions (s : ClusterStore) (now : Now) : List String :=
  (s.sessions.rows.filter fun p => now.mono - p.lastSeen > s.config.holdTimeout).map Peer.nodeId

def checkHold (s : ClusterStore) (now : Now) : List String × ClusterStore :=
  let stale := s.staleSessions now
  (stale, stale.foldl (fun s node => (s.disconnectPeer now node).2) s)

def pruneSuppression (s : ClusterStore) (now : Now) : ClusterStore :=
  { s with evictedUntil := s.evictedUntil.filter fun p => !decide (now.mono ≥ p.2) }

/-- A tombstone stamped at `ms` has outlived the retention window. -/
def expired (config : ClusterConfig) (now : Now) (ms : ℤ) : Bool :=
  decide (now.wallMs - ms > config.retentionMs)

/-- `gc_tombstones`: drop local and foreign tombstones past the retention window.
Both are aged against the timestamp they were stamped with. -/
def gcTombstones (s : ClusterStore) (now : Now) : ℕ × ClusterStore :=
  let kept := s.state.tombstones.filter fun p => !expired s.config now p.2.deletedAtMs
  let removed := s.state.tombstones.rows.length - kept.rows.length
  let s := { s with state := { s.state with tombstones := kept } }
  let s := if removed = 0 then s else s.saveState
  let keptForeign := s.foreign.filter fun env => !(env.tombstone && expired s.config now env.version.ms)
  (removed + (s.foreign.rows.length - keptForeign.rows.length), { s with foreign := keptForeign })

/-! ## Calls to peers -/

def broadcastTargets (s : ClusterStore) (env : SyncEnvelope) : List Peer :=
  s.sessions.rows.filter fun p => env.dataset ∈ p.namespaces

/-- The loop over pulled envelopes in `reconcile`. -/
def applyPulled (now : Now) : List WireEnvelope → ClusterStore → ℕ → Except RpcError ℕ × ClusterStore
  | [], s, pulled => (.ok pulled, s)
  | raw :: rest, s, pulled =>
    match raw.modelValidate with
    | none => (.error .validationError, s)
    | some env =>
      let (stored, s) := s.applyInbound now env
      applyPulled now rest s (pulled + stored.toNat)

section Calls

variable {σ : Type} (t : Transport σ)

/-- Fetch and apply what the peer has newer; no call if there is nothing to fetch. -/
def pullKeys (s : ClusterStore) (now : Now) (peer : Peer) (keys : List Key) (r : σ) :
    Except RpcError ℕ × ClusterStore × σ :=
  if keys = [] then (.ok 0, s, r)
  else match t.pull peer.address s.nodeId keys peer.token r with
    | (.error e, r) => (.error e, s, r)
    | (.ok raws, r) =>
      let (pulled, s) := applyPulled now raws s 0
      (pulled, s, r)

def pushEnvelopes (s : ClusterStore) (keys : List Key) : List WireEnvelope :=
  keys.filterMap fun key => (s.buildEnvelopeForKey key).map SyncEnvelope.modelDump

/-- Push what we have newer; no call if there is nothing to push. -/
def pushKeys (s : ClusterStore) (peer : Peer) (keys : List Key) (r : σ) : Except RpcError ℕ × σ :=
  let envs := s.pushEnvelopes keys
  if envs = [] then (.ok 0, r)
  else match t.updates peer.address s.nodeId envs peer.token r with
    | (.error e, r) => (.error e, r)
    | (.ok counts, r) => (.ok counts.accepted, r)

/-- The first half of `reconcile`: compare bucket hashes, then fetch and diff only
the buckets that differ. The keys to pull and the keys to push; no bucket that
differs means there are none of either. -/
def compareWith (s : ClusterStore) (now : Now) (peer : Peer) (r : σ) :
    Except RpcError (List Key × List Key) × ClusterStore × σ :=
  let ns := sortedSet peer.namespaces
  let (localIndex, s) := s.fullIndex now ns
  let n := s.config.merkleBuckets
  match t.merkle peer.address s.nodeId ns peer.token r with
  | (.error e, r) => (.error e, s, r)
  | (.ok remoteBuckets, r) =>
    let diff := Merkle.differingBuckets (Merkle.bucketHashes localIndex n) remoteBuckets
    if diff = [] then (.ok ([], []), s, r)
    else match t.digest peer.address s.nodeId ns peer.token (diff.insertionSort (· ≤ ·)) r with
      | (.error e, r) => (.error e, s, r)
      | (.ok remoteRows, r) =>
        let remoteIndex : Index := Dict.ofList remoteRows
        let localSub := Merkle.inBuckets localIndex n diff
        (.ok (Merkle.newerKeys remoteIndex localSub, Merkle.newerKeys localSub remoteIndex), s, r)

/-- `reconcile`: pull what is newer there, then push what was newer here when the
two indexes were compared. -/
def reconcile (s : ClusterStore) (now : Now) (peer : Peer) (r : σ) :
    Except RpcError ReconcileCounts × ClusterStore × σ :=
  match compareWith t s now peer r with
  | (.error e, s, r) => (.error e, s, r)
  | (.ok (toPull, toPush), s, r) =>
    match pullKeys t s now peer toPull r with
    | (.error e, s, r) => (.error e, s, r)
    | (.ok pulled, s, r) =>
      match pushKeys t s peer toPush r with
      | (.error e, r) => (.error e, s, r)
      | (.ok pushed, r) => (.ok ⟨pulled, pushed⟩, s, r)

/-- The OPEN that `connect_peer` sends. -/
def openBody (s : ClusterStore) (namespaces : List String) (token : Option String) : OpenRequest where
  nodeId := s.nodeId
  address := s.advertise
  namespaces := if namespaces = [] then existingNamespaces s.registry else namespaces
  token := token

def recordSession (s : ClusterStore) (now : Now) (address : String) (resp : OpenResponse) :
    Peer × ClusterStore :=
  let peer : Peer :=
    { nodeId := resp.nodeId, address, namespaces := resp.accepted, lastSeen := now.mono
      token := resp.sessionToken }
  (peer, { s with
    sessions := s.sessions.insert peer
    evictedUntil := s.evictedUntil.erase peer.nodeId })

/-- `connect_peer`: handshake, record the session, run a first reconcile. -/
def connectPeer (s : ClusterStore) (now : Now) (address : String) (namespaces : List String)
    (token : Option String) (r : σ) : Except RpcError Peer × ClusterStore × σ :=
  match t.openSession address (s.openBody namespaces token) r with
  | (.error e, r) => (.error e, s, r)
  | (.ok resp, r) =>
    let (peer, s) := s.recordSession now address resp
    match s.reconcile t now peer r with
    | (.error e, s, r) => (.error e, s, r)
    | (.ok _, s, r) => (.ok peer, s, r)

end Calls

/-- The handlers of a store as the far end of a transport, with every call
delivered. The address is ignored: there is only one far end. -/
def inProcess (now : Now) (secret : String) : Transport ClusterStore where
  openSession _ body s := let (resp, s) := s.handleOpen now secret body; (.ok resp, s)
  merkle _ fromNode ns token s := let (h, s) := s.serveMerkle now fromNode ns token; (.ok h, s)
  digest _ fromNode ns token buckets s :=
    let (rows, s) := s.serveDigest now fromNode ns token (some buckets)
    (.ok rows, s)
  pull _ fromNode keys token s := let (raws, s) := s.servePull now fromNode keys token; (.ok raws, s)
  updates _ fromNode envs token s := s.serveUpdates now fromNode envs token

/-! ## Local mutations -/

inductive MutationOp where
  | register
  | update
  | deregister
  deriving DecidableEq

/-- The critical section of `on_local_mutation`. -/
def stampMutation (s : ClusterStore) (now : Now) (dataset sid : String) (op : MutationOp) :
    ClusterStore :=
  let (ts, s) := s.nextTs now
  let k := makeKey dataset sid
  let v : Version := ⟨ts, s.nodeId⟩
  let state := match op with
    | .deregister => { s.state with
        tombstones := s.state.tombstones.set k { version := v, deletedAtMs := ts }
        localVersions := s.state.localVersions.erase k }
    | _ => { s.state with
        localVersions := s.state.localVersions.set k v
        tombstones := s.state.tombstones.erase k }
  saveState { s with state }

/-- `on_local_mutation`: stamp the record, and build the envelope to broadcast. -/
def onLocalMutation (s : ClusterStore) (now : Now) (dataset sid : String) (op : MutationOp) :
    Option SyncEnvelope × ClusterStore :=
  let s := s.stampMutation now dataset sid op
  (s.buildLocalEnvelope dataset sid, s)

/-! ## Read path -/

def namespacedRow (origin : String) (id : String) (row : ServiceRow) : ServiceRow :=
  { row with id, originId := some origin }

def liveReplicas (s : ClusterStore) (dataset : String) : List (SyncEnvelope × Payload) :=
  s.foreign.rows.filterMap fun env =>
    if env.dataset ≠ dataset || env.tombstone then none else env.payload.map fun p => (env, p)

def foreignWrapped (s : ClusterStore) (dataset : String) : List ServiceRow :=
  (s.liveReplicas dataset).filterMap fun r =>
    r.2.wrapped.map (namespacedRow r.1.originId (r.1.originId ++ ":" ++ r.1.serviceId))

/-- `foreign_rows`: replicas whose entry does not validate are skipped; one without
a wrapped row raises (`none`). -/
def foreignRows (s : ClusterStore) (dataset : String) : Option (List (RegistryEntry × ServiceRow)) :=
  ((s.liveReplicas dataset).filter fun r => r.2.entry.isSome).mapM fun r => do
    let entry ← r.2.entry
    let wrapped ← r.2.wrapped
    pure (entry, namespacedRow r.1.originId (r.1.originId ++ ":" ++ r.1.serviceId) wrapped)

/-- `display_id.partition(":")`, or `none` without a colon. -/
def splitDisplayId (displayId : String) : Option (String × String) :=
  match displayId.toList.span (· ≠ ':') with
  | (_, []) => none
  | (origin, _ :: sid) => some (String.ofList origin, String.ofList sid)

/-- `foreign_entry`; the outer `none` is a missing record, the inner one a replica
without a wrapped row, which raises. -/
def foreignEntry (s : ClusterStore) (dataset displayId : String) : Option (Option ServiceRow) := do
  let (origin, sid) ← splitDisplayId displayId
  let env ← s.foreign.get? ⟨dataset, origin, sid⟩
  if env.tombstone then none
  else
    let payload ← env.payload
    pure (payload.wrapped.map (namespacedRow origin displayId))

end ClusterStore

end AgentProtocol
