-- SUMMARY: Who sees records of protected namespaces: only callers that present the secret of a session whose handshake carried a token for the namespace.
import AgentProtocol.Cluster.Operations

/-!
# Confidentiality

A node with auth serves its index, its bucket hashes and its records to anybody, cut
down to the namespaces that the caller may see. Which these are is decided when a
session is opened; later calls only present the secret of the session.

The invariant follows the sessions: each one was written by an `OPEN` that is part of
the run, holds the secret issued then, and covers a protected namespace only if the
token of that `OPEN` grants it.
-/

namespace AgentProtocol

open Lib

/-! ## Sessions -/

/-- The operation writes an entry of the session table. -/
def Operation.opens : Operation → Bool
  | .handleOpen .. => true
  | .connectPeer .. => true
  | _ => false

namespace ClusterStore

/-- Every session of `s'` is one of `s`, up to its timer. -/
def SessionsFrom (s s' : ClusterStore) : Prop :=
  ∀ node sess', s'.sessions.get? node = some sess' →
    ∃ sess, s.sessions.get? node = some sess ∧ sess'.token = sess.token ∧ sess'.namespaces = sess.namespaces

theorem SessionsFrom.of_eq {s s' : ClusterStore} (h : s'.sessions = s.sessions) : SessionsFrom s s' := by
  intro node sess hsess
  rw [h] at hsess
  exact ⟨sess, hsess, rfl, rfl⟩

theorem SessionsFrom.trans {s₁ s₂ s₃ : ClusterStore} (h₁ : SessionsFrom s₁ s₂) (h₂ : SessionsFrom s₂ s₃) :
    SessionsFrom s₁ s₃ := by
  intro node sess₃ hsess₃
  obtain ⟨sess₂, hsess₂, htoken₂, hns₂⟩ := h₂ node sess₃ hsess₃
  obtain ⟨sess₁, hsess₁, htoken₁, hns₁⟩ := h₁ node sess₂ hsess₂
  exact ⟨sess₁, hsess₁, htoken₂.trans htoken₁, hns₂.trans hns₁⟩

variable (s : ClusterStore) (now : Now)

theorem sessionsFrom_touchPeer (node : String) : SessionsFrom s (s.touchPeer now node) := by
  intro other sess hsess
  rw [get?_touchPeer] at hsess
  obtain ⟨p, hp, rfl⟩ := Option.map_eq_some_iff.mp hsess
  refine ⟨p, hp, ?_, ?_⟩
  · split <;> rfl
  · split <;> rfl

theorem sessionsFrom_disconnect (now : Now) (nodes : List String) (s : ClusterStore) :
    SessionsFrom s (nodes.foldl (fun s node => (s.disconnectPeer now node).2) s) := by
  induction nodes generalizing s with
  | nil => exact SessionsFrom.of_eq rfl
  | cons node nodes ih =>
    have hnode : SessionsFrom s (s.disconnectPeer now node).2 := by
      intro other sess hsess
      have herase : (s.sessions.erase node).get? other = some sess := hsess
      rw [Table.get?_erase] at herase
      split at herase
      · cases herase
      exact ⟨sess, herase, rfl, rfl⟩
    exact hnode.trans (ih _)

theorem sessionsFrom_visibleIndex (fromNode : String) (ns : List String)
    (token : Option String) : SessionsFrom s (s.visibleIndex now fromNode ns token).2 :=
  (sessionsFrom_touchPeer s now fromNode).trans (SessionsFrom.of_eq (ensureLocalVersions_sessions now _))

theorem OnlyForeign.sessionsFrom {s s' : ClusterStore} (h : OnlyForeign s s') : SessionsFrom s s' :=
  SessionsFrom.of_eq (h.proj sessions fun _ _ => rfl)

theorem sessionsFrom_exec {op : Operation} (hop : op.opens = false) : SessionsFrom s (s.exec now op) := by
  cases op with
  | handleOpen | connectPeer => cases hop
  | applyInbound env => exact (onlyForeign_applyInbound s now env).sessionsFrom
  | serveUpdates fromNode envelopes token =>
    exact (sessionsFrom_touchPeer s now fromNode).trans
      (onlyForeign_applyUpdates now fromNode token envelopes _ _).sessionsFrom
  | reconcile peer t =>
    have hstamped : SessionsFrom s (s.ensureLocalVersions now) :=
      SessionsFrom.of_eq (ensureLocalVersions_sessions now s)
    exact hstamped.trans (reconcile_store t s now peer ()).1.sessionsFrom
  | handleKeepalive fromNode token =>
    simp only [exec, handleKeepalive]
    split
    · exact SessionsFrom.of_eq rfl
    · exact sessionsFrom_touchPeer s now fromNode
  | serveDigest fromNode namespaces token buckets =>
    simp only [exec, serveDigest]
    split <;> exact sessionsFrom_visibleIndex s now fromNode namespaces token
  | serveMerkle fromNode namespaces token => exact sessionsFrom_visibleIndex s now fromNode namespaces token
  | servePull fromNode keys token => exact sessionsFrom_touchPeer s now fromNode
  | checkHold => exact sessionsFrom_disconnect now (s.staleSessions now) s
  | disconnectPeer node => exact sessionsFrom_disconnect now [node] s
  | gcTombstones =>
    simp only [exec, gcTombstones]
    split <;> exact SessionsFrom.of_eq rfl
  | onLocalMutation dataset sid op => cases op <;> exact SessionsFrom.of_eq rfl
  | pruneSuppression | registryWrite => exact SessionsFrom.of_eq rfl

/-! ## Grants -/

/-- The protected namespaces, among those that exist here, are the ones that `flags`
says. -/
def FlagsAre (flags : String → Bool) (s : ClusterStore) : Prop :=
  ∀ reg, s.registry = some reg → ∀ ds ∈ reg.datasets, reg.isAuthRequired ds = flags ds

variable {s : ClusterStore} {flags : String → Bool}

variable {ns : String}

theorem grants_of_acceptsNamespace (hflags : s.FlagsAre flags)
    (hauth : s.authStore ≠ none) {ctx : Option AuthContext} (hns : flags ns = true)
    (h : acceptsNamespace s.registry s.authStore ctx ns = true) : ctx.any (·.grants ns) = true := by
  have hsome : s.authStore.isNone = false := Option.isNone_eq_false_iff.mpr (Option.isSome_iff_ne_none.mpr hauth)
  have hadmin : ctx.any (·.isAdmin) = true → ctx.any (·.grants ns) = true := by
    intro hctx
    obtain ⟨c, hc, hadmin⟩ := (Option.any_eq_true _ _).mp hctx
    exact (Option.any_eq_true _ _).mpr ⟨c, hc, by simp [AuthContext.grants, hadmin]⟩
  unfold acceptsNamespace at h
  rw [hsome, Bool.false_or] at h
  split at h
  · rename_i reg hreg
    split at h
    · rename_i hmem
      have hrequired := hflags reg hreg ns (RegistryService.mem_listDatasets.mp hmem)
      simpa [hrequired, hns] using h
    · exact hadmin h
  · exact hadmin h

/-- Every session was written by an `OPEN` of the run, with the secret issued then, and
covers a protected namespace only if the token of that `OPEN` grants it. -/
def Vouched (flags : String → Bool) (authStore : Option AuthStore) (es : List (Now × Operation))
    (s : ClusterStore) : Prop :=
  ∀ node sess, s.sessions.get? node = some sess →
    ∃ now secret body, (now, .handleOpen secret body) ∈ es ∧ body.nodeId = node ∧
      sess.token = some secret ∧ ∀ ns ∈ sess.namespaces, flags ns = true →
        (resolveContext authStore body.token).any (·.grants ns) = true

theorem vouched_exec {es : List (Now × Operation)}
    (h : s.Vouched flags s.authStore es) (hauth : s.authStore ≠ none) (hflags : s.FlagsAre flags)
    (e : Now × Operation) (hdial : ∀ address namespaces token t, e.2 ≠ .connectPeer address namespaces token t) :
    (step s e).Vouched flags s.authStore (es ++ [e]) := by
  obtain ⟨now, op⟩ := e
  by_cases hop : op.opens = false
  · intro node sess' hsess'
    obtain ⟨sess, hsess, htoken, hns⟩ := sessionsFrom_exec s now hop node sess' hsess'
    obtain ⟨t, secret, body, hmem, hnode, hsecret, hgrants⟩ := h node sess hsess
    exact ⟨t, secret, body, List.mem_append_left _ hmem, hnode, htoken.trans hsecret, by rwa [hns]⟩
  · cases op with
    | handleOpen secret body =>
      intro node sess' hsess'
      have hinsert : ((s.handleOpen now secret body).2).sessions.get? node = some sess' := hsess'
      simp only [handleOpen, Table.get?_insert] at hinsert
      split at hinsert
      · rename_i hnode
        obtain rfl := (Option.some.inj hinsert).symm
        refine ⟨now, secret, body, by simp, hnode, ?_, fun ns hns hflag => ?_⟩
        · simp [Option.isSome_iff_ne_none, hauth]
        · exact grants_of_acceptsNamespace hflags hauth hflag (List.mem_filter.mp hns).2
      · obtain ⟨t, secret', body', hmem, hrest⟩ := h node sess' hinsert
        exact ⟨t, secret', body', List.mem_append_left _ hmem, hrest⟩
    | connectPeer address namespaces token t => exact absurd rfl (hdial address namespaces token t)
    | applyInbound | serveUpdates | reconcile | handleKeepalive | serveDigest | serveMerkle | servePull
    | checkHold | disconnectPeer | pruneSuppression | gcTombstones | onLocalMutation | registryWrite =>
      exact absurd rfl hop

/-! ## Replies -/

/-- Everything that the three serving calls disclose belongs to namespaces with `P`. The
bucket hashes are those of an index that lists only such records. -/
structure Discloses (s : ClusterStore) (now : Now) (fromNode : String) (token : Option String)
    (P : String → Prop) : Prop where
  digest : ∀ namespaces buckets, ∀ row ∈ (s.serveDigest now fromNode namespaces token buckets).1,
    P row.1.dataset
  merkle : ∀ namespaces, ∃ index : Index, (s.serveMerkle now fromNode namespaces token).1 =
      Merkle.bucketHashes index s.config.merkleBuckets ∧ ∀ row ∈ index.rows, P row.1.dataset
  pull : ∀ keys, ∀ raw ∈ (s.servePull now fromNode keys token).1, ∀ env, raw.modelValidate = some env →
    P env.dataset

variable {token : Option String} {fromNode : String} {now : Now}

theorem discloses_of_allowed {P : String → Prop}
    (h : ∀ requested, ∀ ns ∈ (s.touchPeer now fromNode).allowedFor fromNode requested token, P ns) :
    s.Discloses now fromNode token P := by
  have hindex : ∀ namespaces, ∀ row ∈ (s.visibleIndex now fromNode namespaces token).1.rows,
      P row.1.dataset := by
    intro namespaces row hrow
    exact h namespaces _ (of_decide_eq_true (List.mem_filter.mp hrow).2)
  have hconf : ∀ namespaces, (s.visibleIndex now fromNode namespaces token).2.config = s.config :=
    fun namespaces => (sameNode_visibleIndex s now fromNode namespaces token).conf
  refine ⟨fun namespaces buckets row hrow => ?_, fun namespaces => ?_, fun keys raw hraw env henv => ?_⟩
  · unfold serveDigest at hrow
    dsimp only at hrow
    split at hrow
    · exact hindex namespaces row hrow
    · exact hindex namespaces row (List.mem_of_mem_filter hrow)
  · refine ⟨(s.visibleIndex now fromNode namespaces token).1, ?_, hindex namespaces⟩
    rw [← hconf namespaces]
    rfl
  · obtain ⟨key, hkey, hbuild⟩ := List.mem_filterMap.mp hraw
    obtain ⟨env', henv', rfl⟩ := Option.map_eq_some_iff.mp hbuild
    obtain rfl := Option.some.inj henv
    have hds : env'.dataset = key.dataset := congrArg Key.dataset (buildEnvelopeForKey_key henv')
    rw [hds]
    exact h [] _ (of_decide_eq_true (List.mem_filter.mp hkey).2)

theorem allowedFor_cases (hauth : s.authStore ≠ none) {requested : List String}
    (h : ns ∈ (s.touchPeer now fromNode).allowedFor fromNode requested token) :
    (∃ sess, s.sessions.get? fromNode = some sess ∧ sess.token ≠ none ∧ token = sess.token ∧ ns ∈ sess.namespaces) ∨
    (s.authed fromNode token = false ∧ ∃ reg, s.registry = some reg ∧ ns ∈ reg.datasets ∧ reg.isAuthRequired ns = false) := by
  have hsome : s.authStore.isNone = false := Option.isNone_eq_false_iff.mpr (Option.isSome_iff_ne_none.mpr hauth)
  have hpublic : ns ∈ (s.touchPeer now fromNode).publicNamespaces →
      ∃ reg, s.registry = some reg ∧ ns ∈ reg.datasets ∧ reg.isAuthRequired ns = false := by
    intro hns
    unfold publicNamespaces at hns
    rw [touchPeer_registry, touchPeer_authStore, hsome] at hns
    split at hns
    · cases hns
    rename_i reg hreg
    obtain ⟨hmem, hopen⟩ := List.mem_filter.mp hns
    exact ⟨reg, hreg, RegistryService.mem_listDatasets.mp hmem, by simpa using hopen⟩
  have hbase : ns ∈ (s.touchPeer now fromNode).allowedFor fromNode [] token := by
    unfold allowedFor at h ⊢
    dsimp only at h ⊢
    rw [if_pos rfl]
    split at h
    · exact h
    · exact List.mem_of_mem_filter h
  rw [allowedFor] at hbase
  rw [if_pos rfl, touchPeer_authed, get?_touchPeer] at hbase
  cases hauthed : s.authed fromNode token with
  | false =>
    rw [hauthed] at hbase
    exact .inr ⟨rfl, hpublic hbase⟩
  | true =>
    rw [hauthed] at hbase
    unfold authed at hauthed
    rw [hsome] at hauthed
    cases hsess : s.sessions.get? fromNode with
    | none =>
      rw [hsess] at hauthed
      cases hauthed
    | some sess =>
      rw [hsess] at hauthed hbase
      simp only [Bool.false_eq_true, if_false, Bool.and_eq_true, decide_eq_true_eq] at hauthed
      exact .inl ⟨sess, rfl, Option.isSome_iff_ne_none.mp hauthed.1, hauthed.2, by simpa using hbase⟩

/-! ## Runs -/

theorem vouched_run {s₀ : ClusterStore} (hnone : s₀.sessions.rows = [])
    (hauth : s₀.authStore ≠ none) (es : List (Now × Operation))
    (hdial : ∀ now address namespaces token t, (now, .connectPeer address namespaces token t) ∉ es)
    (hflags : ∀ pre, pre <+: es → (run step s₀ pre).FlagsAre flags) : (run step s₀ es).Vouched flags s₀.authStore es := by
  refine run_induct (I := fun pre (s : ClusterStore) => pre <+: es → s.Vouched flags s₀.authStore pre) (fun _ => ?_)
    (fun pre e ih hpre => ?_) es (List.prefix_refl es)
  · intro node sess hsess
    have hempty : s₀.sessions.get? node = none := Table.get?_eq_none.mpr (by simp [hnone])
    rw [hempty] at hsess
    cases hsess
  · have hpre' : pre <+: es := (List.prefix_append pre [e]).trans hpre
    have hsame : (run step s₀ pre).authStore = s₀.authStore := (sameNode_run s₀ pre).auth
    have hmem : e ∈ es := hpre.subset (by simp)
    have hnext := vouched_exec (s := run step s₀ pre) (by rw [hsame]; exact ih hpre')
      (by rw [hsame]; exact hauth) (hflags pre hpre') e fun address namespaces token t he =>
        hdial e.1 address namespaces token t (by rw [← he]; exact hmem)
    rwa [hsame] at hnext

/-- The caller presents the secret that its session has now, which an `OPEN` of the run
issued whose token grants the namespace. -/
def Cleared (es : List (Now × Operation)) (s : ClusterStore) (fromNode : String) (token : Option String)
    (ns : String) : Prop :=
  ∃ sess secret, s.sessions.get? fromNode = some sess ∧ sess.token = some secret ∧ token = some secret ∧
    ∃ now body, (now, .handleOpen secret body) ∈ es ∧ body.nodeId = fromNode ∧
      (resolveContext s.authStore body.token).any (·.grants ns) = true

/-- With auth, and flags that do not change while a dataset exists, after any run in
which sessions come about by `OPEN`s only: what a caller is served belongs to
unprotected namespaces or to ones it is cleared for, and without the current secret it
is served nothing but unprotected namespaces that exist here. -/
theorem serve_confidential (flags : String → Bool) (s₀ : ClusterStore) (hnone : s₀.sessions.rows = [])
    (hauth : s₀.authStore ≠ none) (es : List (Now × Operation))
    (hdial : ∀ now address namespaces token t, (now, .connectPeer address namespaces token t) ∉ es)
    (hflags : ∀ pre, pre <+: es → (run step s₀ pre).FlagsAre flags) (now : Now) (fromNode : String) (token : Option String) :
    (run step s₀ es).Discloses now fromNode token fun ns =>
      (flags ns = true → (run step s₀ es).Cleared es fromNode token ns) ∧ ((run step s₀ es).authed fromNode token = false →
        ∃ reg, (run step s₀ es).registry = some reg ∧ ns ∈ reg.datasets ∧ flags ns = false) := by
  have hvouched := vouched_run hnone hauth es hdial hflags
  have hsame : (run step s₀ es).authStore = s₀.authStore := (sameNode_run s₀ es).auth
  have hflags' := hflags es (List.prefix_refl es)
  rw [← hsame] at hauth hvouched
  generalize run step s₀ es = s at hauth hvouched hflags' ⊢
  refine discloses_of_allowed fun requested ns hns => ?_
  rcases allowedFor_cases hauth hns with ⟨sess, hsess, htoken, heq, hmem⟩ | ⟨hnot, reg, hreg, hds, hopen⟩
  · obtain ⟨t, secret, body, hopen, hnode, hsecret, hgrants⟩ := hvouched fromNode sess hsess
    refine ⟨fun hflag => ?_, fun hnot => ?_⟩
    · exact ⟨sess, secret, hsess, hsecret, heq.trans hsecret, t, body, hopen, hnode, hgrants ns hmem hflag⟩
    · have hauthed : s.authed fromNode token = true := by
        simp [authed, hauth, hsess, heq, hsecret]
      rw [hauthed] at hnot
      cases hnot
  · have hflag : flags ns = false := (hflags' reg hreg ns hds).symm.trans hopen
    refine ⟨fun h => ?_, fun _ => ⟨reg, hreg, hds, hflag⟩⟩
    rw [hflag] at h
    cases h

/-- A node with one service in a protected dataset, and one token for it. -/
def guardedStore : ClusterStore where
  state := { nodeId := "A" }
  registry := some
    { datasets := ["p"]
      entries := ⟨[("p", ⟨[⟨"s", .generic, .apiConfig, "secret", none, none⟩], by decide⟩)], by decide⟩
      authConfig := ⟨[("p", true)], by decide⟩ }
  authStore := some ⟨fun t => if t = "key" then some ⟨"owner", .provider, some ["p"]⟩ else none⟩

def oneOpen : List (Now × Operation) :=
  [(⟨0, 0⟩, .handleOpen "secret" { nodeId := "B", address := "", namespaces := [], token := some "key" })]

theorem serve_confidential_sample : (run step guardedStore oneOpen).Cleared oneOpen "B" (some "secret") "p" ∧
    ∀ raw ∈ ((run step guardedStore oneOpen).servePull ⟨1, 1000⟩ "B" [⟨"p", "A", "s"⟩] (some "stale")).1,
      ∀ env, raw.modelValidate = some env → env.dataset ≠ "p" := by
  have hflags : ∀ pre, pre <+: oneOpen → (run step guardedStore pre).FlagsAre fun ds => decide (ds = "p") := by
    intro pre hpre reg hreg ds hds
    have hsame : (run step guardedStore pre).registry = guardedStore.registry := by
      obtain rfl | ⟨pre', rfl, hpre'⟩ := List.prefix_cons_iff.mp hpre
      · rfl
      · obtain rfl := List.prefix_nil.mp hpre'
        rfl
    rw [hsame] at hreg
    cases hreg
    obtain rfl := List.mem_singleton.mp hds
    decide
  have hserve := serve_confidential (fun ds => decide (ds = "p")) guardedStore rfl (by simp [guardedStore])
    oneOpen (by simp [oneOpen]) hflags ⟨1, 1000⟩ "B"
  have hserved : ((⟨"p", "A", "s"⟩ : Key), (⟨1000, "A"⟩ : Version)) ∈
      ((run step guardedStore oneOpen).serveDigest ⟨1, 1000⟩ "B" [] (some "secret") none).1 := by decide
  refine ⟨((hserve (some "secret")).digest [] none _ hserved).1 rfl, fun raw hraw env henv hp => ?_⟩
  · obtain ⟨reg, -, -, hopen⟩ := ((hserve (some "stale")).pull _ raw hraw env henv).2 (by decide)
    rw [hp] at hopen
    cases hopen

end ClusterStore

end AgentProtocol
