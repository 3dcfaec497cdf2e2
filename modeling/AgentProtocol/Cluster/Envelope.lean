-- SUMMARY: Versions under last-writer-wins, sync envelopes, and the persisted cluster state.
import AgentProtocol.Lib.Lww
import AgentProtocol.Register.Service

/-!
# Envelopes and persisted state

The data that crosses the wire between registries and the data a registry keeps
on disk: `cluster/envelope.py`, `cluster/state.py`, `cluster/config.py` and the
record type of `cluster/membership.py`.

Clock readings are parameters of the operations that take them. `mono` stands for
`time.monotonic` in seconds and `wallMs` for `time.time_ns() // 1_000_000`; a call
uses one reading of each.
-/

namespace AgentProtocol

open Lib

/-! ## Versions -/

/-- The LWW key `(updated_at_ms, node_id)`, compared lexicographically. -/
@[ext] structure Version where
  ms : ℤ
  node : String
  deriving DecidableEq, Repr

namespace Version

def toKey (v : Version) : ℤ ×ₗ String := toLex (v.ms, v.node)

theorem toKey_injective : Function.Injective toKey := by
  intro v w h
  have h' : (v.ms, v.node) = (w.ms, w.node) := h
  exact Version.ext (congrArg Prod.fst h') (congrArg Prod.snd h')

instance : LinearOrder Version := LinearOrder.lift' toKey toKey_injective

theorem lt_iff {v w : Version} : v < w ↔ v.ms < w.ms ∨ (v.ms = w.ms ∧ v.node < w.node) :=
  Prod.Lex.lt_iff

theorem lt_of_ms_lt {v w : Version} (h : v.ms < w.ms) : v < w := lt_iff.mpr (.inl h)

end Version

/-- `version_newer`: does `a` win over `b` under LWW? -/
def versionNewer (a : Version) (b : Option Version) : Bool := Lww.newer a b

/-! ## Envelopes -/

/-- The global identity of a replicated record. -/
structure Key where
  dataset : String
  originId : String
  serviceId : String
  deriving DecidableEq

/-- `{"entry": ..., "wrapped": ...}`; `none` where the part is missing or does
not validate. -/
structure Payload where
  entry : Option RegistryEntry
  wrapped : Option ServiceRow
  deriving DecidableEq

structure SyncEnvelope where
  dataset : String
  serviceId : String
  originId : String
  version : Version
  tombstone : Bool := false
  payload : Option Payload := none
  deriving DecidableEq

def SyncEnvelope.key (env : SyncEnvelope) : Key := ⟨env.dataset, env.originId, env.serviceId⟩

/-- What a peer sends as an envelope, before validation. -/
inductive WireEnvelope where
  | valid (env : SyncEnvelope)
  | malformed

def WireEnvelope.modelValidate : WireEnvelope → Option SyncEnvelope
  | .valid env => some env
  | .malformed => none

/-- `env.model_dump(mode="json")`. -/
def SyncEnvelope.modelDump (env : SyncEnvelope) : WireEnvelope := .valid env

@[simp] theorem modelValidate_modelDump (env : SyncEnvelope) :
    env.modelDump.modelValidate = some env := rfl

/-! ## Membership records -/

structure MembershipRecord where
  nodeId : String
  clusterId : Option String
  address : String
  version : Version
  removed : Bool := false
  deriving DecidableEq

/-- What a peer, or an older state file, supplies as a membership record. -/
inductive WireRecord where
  | record (r : MembershipRecord)
  /-- A legacy `{node_id, address}` entry without a version. -/
  | hint (nodeId address : String)
  | malformed
  deriving DecidableEq

/-- `MembershipRecord.from_dict`, which raises on anything without a version. -/
def WireRecord.fromDict : WireRecord → Option MembershipRecord
  | .record r => some r
  | .hint .. => none
  | .malformed => none

/-! ## Persisted state -/

/-- The composite key of `local_versions` and `tombstones`. The source joins the
two parts with a NUL, which occurs in neither, so the pair is the same key. -/
structure LocalKey where
  dataset : String
  serviceId : String
  deriving DecidableEq

def makeKey (dataset serviceId : String) : LocalKey := ⟨dataset, serviceId⟩

def splitKey (k : LocalKey) : String × String := (k.dataset, k.serviceId)

structure Tombstone where
  version : Version
  deletedAtMs : ℤ
  deriving DecidableEq

structure ClusterState where
  nodeId : String
  versionClock : ℤ := 0
  localVersions : Dict LocalKey Version := ∅
  tombstones : Dict LocalKey Tombstone := ∅
  clusterId : Option String := none
  lastRoster : List WireRecord := []
  myMembershipVersion : Option Version := none

/-! ## Configuration and clocks -/

structure ClusterConfig where
  keepaliveInterval : ℚ := 10
  holdTimeout : ℚ := 30
  antiEntropyInterval : ℚ := 20
  merkleBuckets : ℕ := 256

/-- How long, in seconds, tombstones and post-eviction suppression last. -/
def ClusterConfig.tombstoneRetention (config : ClusterConfig) : ℚ :=
  config.holdTimeout + config.keepaliveInterval

/-- Python's `int`, which truncates towards zero. -/
def pyInt (q : ℚ) : ℤ := if 0 ≤ q then ⌊q⌋ else ⌈q⌉

/-- The retention window in milliseconds. -/
def ClusterConfig.retentionMs (config : ClusterConfig) : ℤ := pyInt (config.tombstoneRetention * 1000)

structure Now where
  mono : ℚ
  wallMs : ℤ

end AgentProtocol
