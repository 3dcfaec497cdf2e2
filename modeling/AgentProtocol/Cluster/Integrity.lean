-- SUMMARY: Who changes the membership state of a node: which peer-facing calls of a caller without credentials do, and with what secret.
import AgentProtocol.Cluster.Confidentiality
import AgentProtocol.Cluster.RawRoster

/-!
# Membership integrity

With auth, `join` wants an admin token and the other calls that write the roster want
the secret of a session. An `OPEN` issues such a secret to any caller, for any node id.
So a caller without credentials does change the roster, by presenting the secret of an
`OPEN` of its own. `breaches` is the exact condition under which a call does. The records
of a batch are JSON whose types nobody checks.
-/

namespace AgentProtocol

open Lib

/-! ## Calls -/

/-- The peer-facing calls. -/
inductive Rpc where
  | openSession (secret : String) (body : OpenRequest)
  | keepalive (fromNode : String) (token : Option String)
  | merkle (fromNode : String) (namespaces : List String) (token : Option String)
  | digest (fromNode : String) (namespaces : List String) (token : Option String)
      (buckets : Option (List ℕ))
  | pulls (fromNode : String) (keys : List Key) (token : Option String)
  | updates (fromNode : String) (envelopes : List WireEnvelope) (token : Option String)
  | join (body : JoinRequest)
  | leave (fromNode : String) (token : Option String)
  | evicted (fromNode : String) (token : Option String)
  | setDigest (fromNode : String) (token : Option String)
  | setPull (fromNode : String) (nodeIds : List String) (token : Option String)
  | setSync (fromNode : String) (records : List Fields) (token : Option String)

namespace Rpc

/-- The token presented for authentication. -/
def bearer : Rpc → Option String
  | .openSession _ body => body.token
  | .join body => body.token
  | _ => none

/-- The session that the call claims: a node id and its secret. -/
def session : Rpc → Option (String × Option String)
  | .openSession .. => none
  | .keepalive fromNode token => some (fromNode, token)
  | .merkle fromNode _ token => some (fromNode, token)
  | .digest fromNode _ token _ => some (fromNode, token)
  | .pulls fromNode _ token => some (fromNode, token)
  | .updates fromNode _ token => some (fromNode, token)
  | .join _ => none
  | .leave fromNode token => some (fromNode, token)
  | .evicted fromNode token => some (fromNode, token)
  | .setDigest fromNode token => some (fromNode, token)
  | .setPull fromNode _ token => some (fromNode, token)
  | .setSync fromNode _ token => some (fromNode, token)

/-- The caller has no credentials at `s`: no token of its is accepted, and it knows no
secret of a session in the table. -/
structure Outsider (s : ClusterStore) (rpc : Rpc) : Prop where
  bearer : resolveContext s.authStore rpc.bearer = none
  session : ∀ sess ∈ s.sessions.rows, sess.token ≠ none → rpc.session.map Prod.snd ≠ some sess.token

instance (s : ClusterStore) (rpc : Rpc) : Decidable (rpc.Outsider s) :=
  decidable_of_iff (resolveContext s.authStore rpc.bearer = none ∧
      ∀ sess ∈ s.sessions.rows, sess.token ≠ none → rpc.session.map Prod.snd ≠ some sess.token)
    ⟨fun h => ⟨h.1, h.2⟩, fun h => ⟨h.bearer, h.session⟩⟩

end Rpc

namespace MembershipStore

variable {σ : Type} (t : MembershipTransport σ)

def otherNodes (own : String) (roster : RawRoster) : List String :=
  roster.filterMap fun p => match p.2.nodeId with
    | .str node => if node = own then none else some node
    | _ => none

/-- `merge` of a batch as it was sent. A comparison that raises ends it where it is. A node whose roster is left
with a record that has fields of other types is not followed any further. -/
def mergeSent (m : MembershipStore) (now : Now) (records : List Value) : Option MembershipStore :=
  let (result, roster) := RawRoster.mergeLoop m.nodeId records (.ofTable m.roster) false false
  if result.toOption.any Prod.snd then some (disconnectAll { m with roster := ∅ } now (otherNodes m.nodeId roster)).persist
  else roster.toTable?.map fun roster =>
    if result.toOption.any Prod.fst then persist { m with roster } else { m with roster }

/-- Serve one call, with the state of whatever this node calls in turn. -/
def serve (m : MembershipStore) (now : Now) (r : σ) : Rpc → Option (MembershipStore × σ)
  | .openSession secret body => some ({ m with store := m.store.exec now (.handleOpen secret body) }, r)
  | .keepalive fromNode token => some ({ m with store := m.store.exec now (.handleKeepalive fromNode token) }, r)
  | .merkle fromNode namespaces token =>
    some ({ m with store := m.store.exec now (.serveMerkle fromNode namespaces token) }, r)
  | .digest fromNode namespaces token buckets =>
    some ({ m with store := m.store.exec now (.serveDigest fromNode namespaces token buckets) }, r)
  | .pulls fromNode keys token => some ({ m with store := m.store.exec now (.servePull fromNode keys token) }, r)
  | .updates fromNode envelopes token =>
    some ({ m with store := m.store.exec now (.serveUpdates fromNode envelopes token) }, r)
  | .join body => some (m.handleJoin t now body r).2
  | .leave fromNode token => some (m.handleEvictSelf t now fromNode token r).2
  | .evicted fromNode token => some ((m.handleEvicted now fromNode token).2, r)
  | .setDigest .. => some (m, r)
  | .setPull .. => some (m, r)
  | .setSync fromNode records token =>
    if m.store.authed fromNode token then (m.mergeSent now (records.map .obj)).map fun m => (m, r) else some (m, r)

/-- One event of a run. -/
def step (w : Option (MembershipStore × σ)) (e : Now × Rpc) : Option (MembershipStore × σ) :=
  w.bind fun w => w.1.serve t e.1 w.2 e.2

/-! ## The roster after a call -/

@[simp] theorem persist_roster (m : MembershipStore) : m.persist.roster = m.roster := rfl

variable (m : MembershipStore) (now : Now)

@[simp] theorem disconnectAll_roster (nodes : List String) :
    (m.disconnectAll now nodes).roster = m.roster := rfl

/-- What of a batch wins changes the roster: a removal of this node empties it, unless a later comparison raises, and
otherwise a record of another node is written. -/
def disturbs (records : List Value) : Bool :=
  let (winners, finished) := RawRoster.winners m.nodeId records (.ofTable m.roster)
  if finished && winners.any fun rec => rec.nodeId.eq (.str m.nodeId) && rec.removed then decide (m.roster ≠ ∅)
  else winners.any fun rec => !rec.nodeId.eq (.str m.nodeId)

/-- The call gets past its gate and has something to change. -/
def breaches : Rpc → Bool
  | .leave fromNode token => decide (fromNode ≠ "") && m.store.authed fromNode token
  | .evicted fromNode token => m.store.authed fromNode token && decide (m.roster ≠ ∅)
  | .setSync fromNode records token => m.store.authed fromNode token && m.disturbs (records.map .obj)
  | _ => false

theorem handleEvictSelf_roster (fromNode : String) (token : Option String)
    (r : σ) : (m.handleEvictSelf t now fromNode token r).2.1.roster = m.roster ↔
      (fromNode = "" ∨ m.store.authed fromNode token = false) := by
  unfold handleEvictSelf
  split
  · rename_i h
    simpa using h
  · rename_i h
    refine iff_of_false (fun heq => ?_) (by simpa using h)
    have hget := congrArg (Table.get? · fromNode) heq
    simp only [persist_roster, disconnectAll_roster, Table.get?_insert, if_true] at hget
    cases hcur : m.roster.get? fromNode with
    | none =>
      rw [hcur] at hget
      cases hget
    | some cur =>
      rw [hcur] at hget
      have hms := congrArg (·.version.ms) (Option.some.inj hget)
      have hlt := m.store.lt_nextVersionAfter now cur.version.ms
      exact absurd hms hlt.ne'

theorem handleEvicted_roster (fromNode : String) (token : Option String) :
    (m.handleEvicted now fromNode token).2.roster = m.roster ↔ (m.store.authed fromNode token = false ∨ m.roster = ∅) := by
  unfold handleEvicted
  cases m.store.authed fromNode token with
  | false => simp
  | true => simp [becomeStandalone, eq_comm]

theorem mergeSent_roster (records : List Value) :
    (m.mergeSent now records).map (·.roster) = some m.roster ↔ m.disturbs records = false := by
  have hevicted := RawRoster.mergeLoop_evicted m.nodeId records (.ofTable m.roster) false false
  obtain ⟨hmoved, hsame⟩ := RawRoster.mergeLoop_roster m.nodeId m.roster records false false
  unfold mergeSent disturbs
  generalize RawRoster.mergeLoop m.nodeId records (.ofTable m.roster) false false = merged at *
  rw [Bool.false_or] at hevicted
  dsimp only
  rw [hevicted]
  split
  · rw [Option.map_some, Option.some.injEq, persist_roster, disconnectAll_roster, decide_eq_false_iff_not, not_not]
    exact eq_comm
  · cases hwins : (RawRoster.winners m.nodeId records (.ofTable m.roster)).1.any fun rec => !rec.nodeId.eq (.str m.nodeId) with
    | true =>
      refine iff_of_false (fun h => ?_) Bool.false_ne_true.symm
      obtain ⟨m', hm', hroster⟩ := Option.map_eq_some_iff.mp h
      obtain ⟨roster, htable, rfl⟩ := Option.map_eq_some_iff.mp hm'
      obtain rfl : roster = m.roster := by split at hroster <;> exact hroster
      exact (hmoved hwins).ne (RawRoster.ofTable_of_toTable? htable)
    | false =>
      rw [hsame hwins, RawRoster.toTable?_ofTable, Option.map_some, Option.map_some]
      refine iff_of_true (congrArg some ?_) rfl
      split <;> rfl

variable {m : MembershipStore}

theorem handleJoin_refused (hauth : m.store.authStore ≠ none) {body : JoinRequest}
    (hbearer : resolveContext m.store.authStore body.token = none) (now : Now) (r : σ) :
    (m.handleJoin t now body r).2 = (m, r) := by
  simp [handleJoin, joinAuthorized, hbearer, Option.isSome_iff_ne_none, hauth]

variable {rpc : Rpc}

variable (hauth : m.store.authStore ≠ none) (hbearer : resolveContext m.store.authStore rpc.bearer = none)
include hauth hbearer

theorem serve_roster (now : Now) (r : σ) : (m.serve t now r rpc).map (·.1.roster) = some m.roster ↔ m.breaches rpc = false := by
  cases rpc with
  | join body => simp [serve, handleJoin_refused t hauth hbearer, breaches]
  | leave fromNode token =>
    rw [serve, Option.map_some, Option.some.injEq, handleEvictSelf_roster]
    simp [breaches, imp_iff_not_or]
  | evicted fromNode token =>
    rw [serve, Option.map_some, Option.some.injEq, handleEvicted_roster]
    simp [breaches, imp_iff_not_or]
  | setSync fromNode records token =>
    rw [serve, breaches]
    cases m.store.authed fromNode token with
    | false => simp
    | true => simpa [Function.comp_def] using m.mergeSent_roster now (records.map .obj)
  | openSession | keepalive | merkle | digest | pulls | updates | setDigest | setPull =>
    exact iff_of_true rfl rfl

/-! ## The store after a call -/

/-- `s'` is the same node, with no session that `s` does not have. -/
structure Keeps (s s' : ClusterStore) : Prop where
  same : ClusterStore.SameNode s s'
  sessions : ClusterStore.SessionsFrom s s'

omit hauth hbearer in
theorem Keeps.refl (s : ClusterStore) : Keeps s s := ⟨⟨rfl, rfl, rfl⟩, .of_eq rfl⟩

omit hauth hbearer in
theorem Keeps.trans {s₁ s₂ s₃ : ClusterStore} (h₁ : Keeps s₁ s₂) (h₂ : Keeps s₂ s₃) : Keeps s₁ s₃ :=
  ⟨h₁.same.trans h₂.same, h₁.sessions.trans h₂.sessions⟩

omit hauth hbearer in
theorem keeps_exec (s : ClusterStore) (now : Now) {op : Operation} (hop : op.opens = false) : Keeps s (s.exec now op) :=
  ⟨ClusterStore.sameNode_exec s now op, ClusterStore.sessionsFrom_exec s now hop⟩

omit hauth hbearer in
theorem keeps_persist (m : MembershipStore) : Keeps m.store m.persist.store :=
  ⟨⟨rfl, rfl, rfl⟩, .of_eq rfl⟩

omit hauth hbearer in
theorem keeps_disconnectAll (m : MembershipStore) (now : Now) (nodes : List String) :
    Keeps m.store (m.disconnectAll now nodes).store :=
  ⟨ClusterStore.sameNode_disconnect now nodes m.store, ClusterStore.sessionsFrom_disconnect now nodes m.store⟩

omit hauth hbearer in
theorem keeps_becomeStandalone (m : MembershipStore) (now : Now) : Keeps m.store (m.becomeStandalone now).store :=
  (keeps_disconnectAll { m with roster := ∅ } now _).trans (keeps_persist _)

omit hauth hbearer in
theorem keeps_mergeSent {m m' : MembershipStore} {now : Now} {records : List Value} (h : m.mergeSent now records = some m') :
    Keeps m.store m'.store := by
  unfold mergeSent at h
  dsimp only at h
  split at h
  · obtain rfl := Option.some.inj h
    exact (keeps_disconnectAll { m with roster := ∅ } now _).trans (keeps_persist _)
  · obtain ⟨roster, -, rfl⟩ := Option.map_eq_some_iff.mp h
    split
    · exact keeps_persist { m with roster }
    · exact Keeps.refl _

omit hauth hbearer in
theorem keeps_handleEvictSelf (m : MembershipStore) (now : Now) (fromNode : String) (token : Option String)
    (r : σ) : Keeps m.store (m.handleEvictSelf t now fromNode token r).2.1.store := by
  unfold handleEvictSelf
  split
  · exact Keeps.refl _
  · have hversion : ∀ floorMs, Keeps m.store (m.store.nextVersionAfter now floorMs).2 :=
      fun _ => ⟨⟨rfl, rfl, rfl⟩, .of_eq rfl⟩
    exact (hversion _).trans ((keeps_disconnectAll ⟨_, _⟩ now [fromNode]).trans (keeps_persist _))

theorem keeps_serve (hopen : ∀ secret body, rpc ≠ .openSession secret body) {now : Now} {r : σ} {w : MembershipStore × σ}
    (h : m.serve t now r rpc = some w) : Keeps m.store w.1.store := by
  cases rpc with
  | openSession secret body => exact absurd rfl (hopen secret body)
  | setSync fromNode records token =>
    simp only [serve] at h
    split at h
    · obtain ⟨m', hm', rfl⟩ := Option.map_eq_some_iff.mp h
      exact keeps_mergeSent hm'
    · obtain rfl := Option.some.inj h
      exact Keeps.refl _
  | join body =>
    rw [serve, handleJoin_refused t hauth hbearer] at h
    obtain rfl := Option.some.inj h
    exact Keeps.refl _
  | leave fromNode token =>
    obtain rfl := Option.some.inj h
    exact m.keeps_handleEvictSelf t now fromNode token r
  | evicted fromNode token =>
    obtain rfl := Option.some.inj h
    simp only [handleEvicted]
    split
    · exact Keeps.refl _
    · exact m.keeps_becomeStandalone now
  | setDigest | setPull =>
    obtain rfl := Option.some.inj h
    exact Keeps.refl _
  | keepalive | merkle | digest | pulls | updates =>
    obtain rfl := Option.some.inj h
    dsimp only
    apply keeps_exec
    rfl

theorem sameNode_serve {now : Now} {r : σ} {w : MembershipStore × σ} (h : m.serve t now r rpc = some w) :
    ClusterStore.SameNode m.store w.1.store := by
  cases rpc with
  | openSession secret body =>
    obtain rfl := Option.some.inj h
    exact ClusterStore.sameNode_exec m.store now (.handleOpen secret body)
  | _ => exact (keeps_serve t hauth hbearer (by simp) h).same

omit hauth hbearer

/-! ## Secrets -/

/-- Every secret in the session table was there at first, or was issued under the same
node id by an `OPEN` of the run. -/
def Issued (s₀ : ClusterStore) (es : List (Now × Rpc)) (s : ClusterStore) : Prop :=
  ∀ node sess, s.sessions.get? node = some sess → sess.token ≠ none →
    (∃ sess₀ ∈ s₀.sessions.rows, sess₀.token = sess.token) ∨
    ∃ now secret body, (now, .openSession secret body) ∈ es ∧ body.nodeId = node ∧ sess.token = some secret

theorem issued_step {s₀ : ClusterStore} {w w' : MembershipStore × σ} {es : List (Now × Rpc)}
    (h : Issued s₀ es w.1.store) (hauth : w.1.store.authStore ≠ none) {now : Now} {rpc : Rpc}
    (hbearer : resolveContext w.1.store.authStore rpc.bearer = none) (hw : w.1.serve t now w.2 rpc = some w') :
    Issued s₀ (es ++ [(now, rpc)]) w'.1.store := by
  have hearlier : ∀ node sess, w.1.store.sessions.get? node = some sess → sess.token ≠ none →
      (∃ sess₀ ∈ s₀.sessions.rows, sess₀.token = sess.token) ∨ ∃ now' secret body,
        (now', .openSession secret body) ∈ es ++ [(now, rpc)] ∧ body.nodeId = node ∧ sess.token = some secret := by
    intro node sess hsess hne
    refine (h node sess hsess hne).imp_right ?_
    rintro ⟨now', secret, body, hmem, hrest⟩
    exact ⟨now', secret, body, List.mem_append_left _ hmem, hrest⟩
  by_cases hopen : ∃ secret body, rpc = .openSession secret body
  · obtain ⟨secret, body, rfl⟩ := hopen
    obtain rfl := Option.some.inj hw
    intro node sess hsess hne
    have hinsert : ((w.1.store.handleOpen now secret body).2).sessions.get? node = some sess := hsess
    simp only [ClusterStore.handleOpen, Table.get?_insert] at hinsert
    split at hinsert
    · rename_i hnode
      obtain rfl := (Option.some.inj hinsert).symm
      refine .inr ⟨now, secret, body, by simp, hnode, ?_⟩
      simp [Option.isSome_iff_ne_none, hauth]
    · exact hearlier node sess hinsert hne
  · have hkeeps := keeps_serve t hauth hbearer (fun secret body heq => hopen ⟨secret, body, heq⟩) hw
    intro node sess' hsess' hne
    obtain ⟨sess, hsess, htoken, -⟩ := hkeeps.sessions node sess' hsess'
    rw [htoken] at hne ⊢
    exact hearlier node sess hsess hne

theorem authed_of_breaches (hauth : m.store.authStore ≠ none) (h : m.breaches rpc = true) :
    ∃ node sess, rpc.session = some (node, sess.token) ∧ m.store.sessions.get? node = some sess ∧ sess.token ≠ none := by
  have hauthed : ∃ node token, rpc.session = some (node, token) ∧ m.store.authed node token = true := by
    cases rpc with
    | leave fromNode token => exact ⟨fromNode, token, rfl, (Bool.and_eq_true_iff.mp h).2⟩
    | evicted fromNode token | setSync fromNode records token => exact ⟨fromNode, token, rfl, (Bool.and_eq_true_iff.mp h).1⟩
    | openSession | keepalive | merkle | digest | pulls | updates | join | setDigest | setPull => cases h
  obtain ⟨node, token, hsession, hauthed⟩ := hauthed
  unfold ClusterStore.authed at hauthed
  rw [if_neg (by simpa using hauth)] at hauthed
  split at hauthed
  · cases hauthed
  rename_i sess hsess
  obtain ⟨hsome, htoken⟩ := Bool.and_eq_true_iff.mp hauthed
  obtain rfl := of_decide_eq_true htoken
  exact ⟨node, sess, hsession, hsess, Option.isSome_iff_ne_none.mp hsome⟩

/-! ## Runs -/

/-- Without credentials, the store stays the same node's and has the secrets that were issued. -/
theorem issued_run (m₀ : MembershipStore) (r : σ) (hauth : m₀.store.authStore ≠ none) (es : List (Now × Rpc))
    (hbearer : ∀ e ∈ es, resolveContext m₀.store.authStore e.2.bearer = none) :
    ∀ w ∈ run (step t) (some (m₀, r)) es, ClusterStore.SameNode m₀.store w.1.store ∧ Issued m₀.store es w.1.store := by
  refine run_induct (I := fun pre (s : Option (MembershipStore × σ)) => pre <+: es →
    ∀ w ∈ s, ClusterStore.SameNode m₀.store w.1.store ∧ Issued m₀.store pre w.1.store) ?_ ?_ es (List.prefix_refl es)
  · rintro - w hw
    obtain rfl := Option.some.inj hw
    exact ⟨⟨rfl, rfl, rfl⟩, fun node sess hsess _ => .inl ⟨sess, (Table.get?_eq_some.mp hsess).1, rfl⟩⟩
  · intro pre e ih hpre w' hw'
    obtain ⟨w, hw, hserve⟩ := Option.bind_eq_some_iff.mp hw'
    obtain ⟨hsame, hissued⟩ := ih ((List.prefix_append pre [e]).trans hpre) w hw
    have he := hbearer e (hpre.subset (by simp))
    rw [← hsame.auth] at he hauth
    exact ⟨hsame.trans (sameNode_serve t hauth he hserve), issued_step t hissued hauth he hserve⟩

/-- With auth, in every run of calls by a caller without credentials: the membership
state never changes iff no call of the run breaches, and a call that does presents a
secret that an earlier `OPEN` of the run issued under the same node id. -/
theorem membership_unchanged_iff (m₀ : MembershipStore) (r : σ) (hauth : m₀.store.authStore ≠ none)
    (es : List (Now × Rpc)) (hout : ∀ e ∈ es, e.2.Outsider m₀.store) :
    ((∀ pre, pre <+: es → (run (step t) (some (m₀, r)) pre).map (fun w => (w.1.roster, w.1.clusterId)) =
        some (m₀.roster, m₀.clusterId)) ↔
      Along (step t) (fun s e => ∀ w ∈ s, w.1.breaches e.2 = false) (some (m₀, r)) es) ∧
    ∀ pre e post w, es = pre ++ e :: post → run (step t) (some (m₀, r)) pre = some w → w.1.breaches e.2 = true →
      ∃ now secret body, (now, .openSession secret body) ∈ pre ∧ e.2.session = some (body.nodeId, some secret) := by
  have hbearer : ∀ e ∈ es, resolveContext m₀.store.authStore e.2.bearer = none := fun e he => (hout e he).bearer
  constructor
  · -- `cluster_id` is read off the roster, so only the roster matters
    have hroster : (∀ pre, pre <+: es → (run (step t) (some (m₀, r)) pre).map (fun w => (w.1.roster, w.1.clusterId)) =
        some (m₀.roster, m₀.clusterId)) ↔
        ∀ pre, pre <+: es → (run (step t) (some (m₀, r)) pre).map (·.1.roster) = some m₀.roster := by
      refine forall₂_congr fun pre hpre => ?_
      have hrun := issued_run t m₀ r hauth pre fun e he => hbearer e (hpre.subset he)
      cases hw : run (step t) (some (m₀, r)) pre with
      | none => simp
      | some w =>
        have hnode : w.1.nodeId = m₀.nodeId := (hrun w hw).1.node
        simp only [Option.map_some, Option.some.injEq, Prod.mk.injEq, and_iff_left_iff_imp]
        intro heq
        rw [clusterId, clusterId, heq, hnode]
    rw [hroster]
    refine (constant_iff_along (s := some (m₀, r)) (f := fun s => s.map (·.1.roster))).trans ?_
    apply along_congr (I := fun s => ∀ w ∈ s, ClusterStore.SameNode m₀.store w.1.store)
    · intro w hw
      obtain rfl := Option.some.inj hw
      exact ⟨rfl, rfl, rfl⟩
    · intro s e he hsame w' hw'
      obtain ⟨w, hw, hserve⟩ := Option.bind_eq_some_iff.mp hw'
      have hbearer' := hbearer e he
      rw [← (hsame w hw).auth] at hbearer' hauth
      exact (hsame w hw).trans (sameNode_serve t hauth hbearer' hserve)
    · intro s e he hsame
      cases s with
      | none => simp [step]
      | some w =>
        have hsame := hsame w (Option.mem_some_self w)
        have hbearer' := hbearer e he
        rw [← hsame.auth] at hbearer' hauth
        have hserve := serve_roster t hauth hbearer' e.1 w.2
        simp only [step, Option.bind_some, Option.map_some, Option.mem_def, Option.some.injEq, forall_eq']
        exact hserve
  · rintro pre e post w rfl hw hbreaches
    have hpre : ∀ e' ∈ pre, resolveContext m₀.store.authStore e'.2.bearer = none :=
      fun e' he' => hbearer e' (List.mem_append_left _ he')
    obtain ⟨hsame, hissued⟩ := issued_run t m₀ r hauth pre hpre w hw
    obtain ⟨node, sess, hsession, hsess, hne⟩ := authed_of_breaches (by rw [hsame.auth]; exact hauth) hbreaches
    rcases hissued node sess hsess hne with ⟨sess₀, hmem, heq⟩ | ⟨now, secret, body, hrest⟩
    · -- a secret that was there at first is one the caller does not know
      rw [← heq] at hsession hne
      exact absurd (by rw [hsession]; rfl) ((hout e (by simp)).session sess₀ hmem hne)
    · obtain ⟨hmem, rfl, htoken⟩ := hrest
      exact ⟨now, secret, body, hmem, by rw [hsession, htoken]⟩

/-- A node with auth that is in a cluster with one other node, with which it has a
session. -/
def clusteredStore : MembershipStore where
  store :=
    { state := { nodeId := "A", clusterId := some "clu" }
      authStore := some ⟨fun t => if t = "admin" then some ⟨"root", .admin, none⟩ else none⟩
      sessions := ⟨[⟨"B", "http://b", [], 0, some "secret"⟩], by decide⟩ }
  roster := ⟨[⟨"A", some "clu", "http://a", ⟨1, "A"⟩, false⟩, ⟨"B", some "clu", "http://b", ⟨2, "B"⟩, false⟩],
    by decide⟩

/-- Nobody answers. -/
def deafTransport : MembershipTransport Unit where
  openSession _ _ r := (.error .transportError, r)
  merkle _ _ _ _ r := (.error .transportError, r)
  digest _ _ _ _ _ r := (.error .transportError, r)
  pull _ _ _ _ r := (.error .transportError, r)
  updates _ _ _ _ r := (.error .transportError, r)
  evictSelf _ _ _ r := (.error .transportError, r)
  setSync _ _ _ _ r := (.error .transportError, r)

/-- Open a session under a node id of one's own, without a token, and use its secret. -/
def openThen (rpc : Rpc) : List (Now × Rpc) :=
  [(⟨0, 0⟩, .openSession "mine" { nodeId := "M" }), (⟨1, 1000⟩, rpc)]

/-- A record of another node whose version is no pair of a number and a node. -/
def untypedRecord : Fields :=
  .ofList [("node_id", .str "x"), ("version", .arr (.cons (.str "9") (.cons (.str "x") .nil)))]

/-- Another node's secret changes nothing, and a batch that does presents one's own. -/
theorem membership_unchanged_sample :
    (run (step deafTransport) (some (clusteredStore, ())) (openThen (.evicted "B" (some "mine")))).map
        (fun w => (w.1.roster, w.1.clusterId)) = some (clusteredStore.roster, clusteredStore.clusterId) ∧
      ∃ now secret body, (now, .openSession secret body) ∈ [((⟨0, 0⟩, .openSession "mine" { nodeId := "M" }) : Now × Rpc)] ∧
        some ("M", some "mine") = some (body.nodeId, some secret) := by
  have hauth : clusteredStore.store.authStore ≠ none := Option.some_ne_none _
  have hunchanged := (membership_unchanged_iff deafTransport clusteredStore () hauth
    (openThen (.evicted "B" (some "mine"))) (by decide)).1.mpr (by decide)
  have hissued := (membership_unchanged_iff deafTransport clusteredStore () hauth
    (openThen (.setSync "M" [untypedRecord] (some "mine"))) (by decide)).2 [(⟨0, 0⟩, .openSession "mine" { nodeId := "M" })]
    (⟨1, 1000⟩, .setSync "M" [untypedRecord] (some "mine")) [] _ rfl rfl (by decide +kernel)
  exact ⟨hunchanged _ (List.prefix_refl _), hissued⟩

/-- A stranger opens a session and tells the node that it was removed from its cluster. -/
theorem membership_wiped : ¬ ∀ (t : MembershipTransport Unit) (m₀ : MembershipStore), m₀.store.authStore ≠ none →
      ∀ es : List (Now × Rpc), (∀ e ∈ es, e.2.Outsider m₀.store) → ∀ pre, pre <+: es →
        (run (step t) (some (m₀, ())) pre).map (fun w => (w.1.roster, w.1.clusterId)) = some (m₀.roster, m₀.clusterId) := by
  intro h
  have hunchanged := h deafTransport clusteredStore (Option.some_ne_none _)
    (openThen (.evicted "M" (some "mine"))) (by decide) _ (List.prefix_refl _)
  exact absurd hunchanged (by decide)

end MembershipStore

end AgentProtocol
