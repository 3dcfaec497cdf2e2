-- SUMMARY: Handshakes between two nodes in any interleaving: when the two session tables end up with one secret that the nodes accept.
import AgentProtocol.Cluster.Pair

/-!
# Handshakes

`connect_peer` sends an `OPEN`, which the receiver's `handle_open` answers, and then
records the answer. The receiver has written its session when it answers, the caller
only when the answer arrives. Two nodes may connect to each other at the same time, so
their handshakes may cross.

A node's table ends up with the secret of the handshake that wrote it last.
-/

namespace AgentProtocol

open Lib

def Pair.Side.other : Pair.Side → Pair.Side
  | .a => .b
  | .b => .a

@[simp] theorem Pair.Side.other_other (x : Pair.Side) : x.other.other = x := by cases x <;> rfl

theorem Pair.Side.eq_or_eq_other (x y : Pair.Side) : x = y ∨ x = y.other := by
  cases x <;> cases y <;> simp [Pair.Side.other]

/-- A call of `connect_peer` whose `OPEN` has been answered. -/
structure Handshake where
  caller : Pair.Side
  address : String
  /-- The secret that was minted for it. -/
  secret : String
  response : OpenResponse

structure Handshakes where
  nodes : Pair.Side → ClusterStore
  opened : List Handshake := []
  /-- The handshakes whose answer the caller has recorded. -/
  recorded : List ℕ := []

namespace Handshakes

open Pair (Side)

inductive Event where
  /-- `caller` sends an `OPEN`, and the other node handles it. -/
  | request (caller : Side) (now : Now) (address : String) (namespaces : List String)
      (token : Option String) (secret : String)
  /-- The answer of the `i`-th handshake reaches its caller. -/
  | record (i : ℕ) (now : Now)

def Event.secret : Event → Option String
  | .request _ _ _ _ _ secret => some secret
  | .record _ _ => none

def step (h : Handshakes) : Event → Handshakes
  | .request caller now address namespaces token secret =>
    let (response, receiver) :=
      (h.nodes caller.other).handleOpen now secret ((h.nodes caller).openBody namespaces token)
    { h with
      nodes := Function.update h.nodes caller.other receiver
      opened := h.opened ++ [{ caller, address, secret, response }] }
  | .record i now =>
    match h.opened[i]? with
    | none => h
    | some hs =>
      if i ∈ h.recorded then h
      else
        let (_, caller) := (h.nodes hs.caller).recordSession now hs.address hs.response
        { h with nodes := Function.update h.nodes hs.caller caller, recorded := h.recorded ++ [i] }

def writesAt (x : Side) (h : Handshakes) : Event → Option ℕ
  | .request caller _ _ _ _ _ => if caller.other = x then some h.opened.length else none
  | .record i _ =>
    match h.opened[i]? with
    | none => none
    | some hs => if i ∉ h.recorded ∧ hs.caller = x then some i else none

/-- The handshakes that write the table of `x`, in that order. -/
def writes (h : Handshakes) (x : Side) (es : List Event) : List ℕ := observed step (writesAt x) h es

/-- Every connect that was started has completed. -/
def Done (h : Handshakes) : Prop := ∀ i < h.opened.length, i ∈ h.recorded

/-! ## What the tables hold -/

/-- The secret in use after a handshake, if any. -/
def token (nodes : Side → ClusterStore) (hs : Handshake) : Option String :=
  if (nodes hs.caller.other).authStore.isSome then some hs.secret else none

/-- Each table holds the token of the handshake that wrote it last. -/
structure Track (nodes : Side → ClusterStore) (secrets : List String) (written : Side → List ℕ)
    (h : Handshakes) : Prop where
  node : ∀ x, (h.nodes x).nodeId = (nodes x).nodeId
  auth : ∀ x, (h.nodes x).authStore = (nodes x).authStore
  secrets : h.opened.map Handshake.secret = secrets
  answers : ∀ hs ∈ h.opened, hs.response.nodeId = (nodes hs.caller.other).nodeId ∧
    hs.response.sessionToken = token nodes hs
  table : ∀ x, ((h.nodes x).sessions.get? (nodes x.other).nodeId).map Peer.token =
    ((written x).getLast?.bind fun i => h.opened[i]?).map (token nodes)
  recorded : ∀ i ∈ h.recorded, i < h.opened.length
  writers : ∀ x i, i ∈ written x ↔
    ∃ hs, h.opened[i]? = some hs ∧ (hs.caller.other = x ∨ (i ∈ h.recorded ∧ hs.caller = x))

variable {nodes : Side → ClusterStore} {secrets : List String} {written : Side → List ℕ} {h : Handshakes}

variable (ht : Track nodes secrets written h)
include ht

theorem Track.lt_of_mem {x : Side} {i : ℕ} (hi : i ∈ written x) : i < h.opened.length := by
  obtain ⟨hs, hopened, -⟩ := (ht.writers x i).mp hi
  exact (List.getElem?_eq_some_iff.mp hopened).1

omit ht in
theorem proj_update {α : Type} (f : ClusterStore → α) {x : Side} {s : ClusterStore}
    (hf : f s = f (h.nodes x)) (y : Side) : f (Function.update h.nodes x s y) = f (h.nodes y) := by
  by_cases hy : y = x
  · subst hy
    rw [Function.update_self, hf]
  · rw [Function.update_of_ne hy]

theorem track_request (caller : Side) (now : Now) (address : String)
    (namespaces : List String) (tok : Option String) (secret : String) : Track nodes (secrets ++ [secret])
      (fun x => written x ++ (writesAt x h (.request caller now address namespaces tok secret)).toList)
      (h.step (.request caller now address namespaces tok secret)) := by
  have hnew : ∀ response : OpenResponse, token nodes { caller, address, secret, response } =
      if (h.nodes caller.other).authStore.isSome then some secret else none := by
    intro response
    rw [ht.auth]
    rfl
  have hnodes : (h.step (.request caller now address namespaces tok secret)).nodes =
      Function.update h.nodes caller.other ((h.nodes caller.other).handleOpen now secret
        ((h.nodes caller).openBody namespaces tok)).2 := rfl
  refine ⟨fun x => ?_, fun x => ?_, ?_, fun hs hhs => ?_, fun x => ?_, fun i hi => ?_, fun x i => ?_⟩
  · rw [hnodes, proj_update ClusterStore.nodeId (by rfl)]
    exact ht.node x
  · rw [hnodes, proj_update ClusterStore.authStore (by rfl)]
    exact ht.auth x
  · simp [step, ht.secrets]
  · rcases List.mem_append.mp hhs with hold | hmem
    · exact ht.answers hs hold
    · obtain rfl := List.mem_singleton.mp hmem
      exact ⟨ht.node caller.other, (hnew _).symm⟩
  · by_cases hx : caller.other = x
    · subst hx
      have hkey : (nodes caller.other.other).nodeId = ((h.nodes caller).openBody namespaces tok).nodeId := by
        rw [Pair.Side.other_other]
        exact (ht.node caller).symm
      simp only [step, writesAt, if_true, Option.toList_some, Function.update_self, List.getLast?_concat]
      rw [hkey]
      simp [ClusterStore.handleOpen, hnew]
    · simp only [step, writesAt, if_neg hx, Option.toList_none, List.append_nil]
      rw [Function.update_of_ne (Ne.symm hx), ht.table x]
      cases hlast : (written x).getLast? with
      | none => rfl
      | some i => simp [List.getElem?_append_left (ht.lt_of_mem (List.mem_of_getLast? hlast))]
  · have hlt := ht.recorded i hi
    simp only [step, List.length_append]
    omega
  · have hunrecorded : h.opened.length ∉ h.recorded := fun hm => lt_irrefl _ (ht.recorded _ hm)
    have hunwritten : h.opened.length ∉ written x := fun hm => lt_irrefl _ (ht.lt_of_mem hm)
    simp only [step, writesAt]
    rcases lt_trichotomy i h.opened.length with hlt | rfl | hgt
    · have hne : i ≠ h.opened.length := hlt.ne
      rw [List.getElem?_append_left hlt, ← ht.writers x i]
      split <;> simp [hne]
    · by_cases hx : caller.other = x
      · simp [hx]
      · simp [hx, hunwritten, hunrecorded]
    · have hout : i ∉ written x := fun hm => absurd (ht.lt_of_mem hm) (by omega)
      have hnone : (h.opened ++ [({ caller, address, secret, response := ((h.nodes caller.other).handleOpen now
          secret ((h.nodes caller).openBody namespaces tok)).1 } : Handshake)])[i]? = none := by
        rw [List.getElem?_eq_none_iff, List.length_append, List.length_singleton]
        omega
      have hne : i ≠ h.opened.length := hgt.ne'
      rw [hnone]
      split <;> simp [hout, hne]

theorem track_record (i : ℕ) (now : Now) :
    Track nodes secrets (fun x => written x ++ (writesAt x h (.record i now)).toList)
      (h.step (.record i now)) := by
  cases hi : h.opened[i]? with
  | none => simpa [step, writesAt, hi] using ht
  | some hs =>
    by_cases hrec : i ∈ h.recorded
    · simpa [step, writesAt, hi, hrec] using ht
    · obtain ⟨hnode, htoken⟩ := ht.answers hs (List.mem_of_getElem? hi)
      have hstep : h.step (.record i now) =
          { h with
            nodes := Function.update h.nodes hs.caller
              ((h.nodes hs.caller).recordSession now hs.address hs.response).2
            recorded := h.recorded ++ [i] } := by
        simp [step, hi, hrec]
      have hwrites : ∀ x, writesAt x h (.record i now) = if hs.caller = x then some i else none := by
        intro x
        simp [writesAt, hi, hrec]
      rw [hstep]
      simp only [hwrites]
      refine ⟨fun x => ?_, fun x => ?_, ht.secrets, ht.answers, fun x => ?_, fun j hj => ?_, fun x j => ?_⟩
      · rw [proj_update ClusterStore.nodeId (by rfl)]
        exact ht.node x
      · rw [proj_update ClusterStore.authStore (by rfl)]
        exact ht.auth x
      · by_cases hx : hs.caller = x
        · subst hx
          dsimp only
          rw [Function.update_self, ← hnode]
          simp [ClusterStore.recordSession, htoken, hi]
        · simp only [Function.update_of_ne (Ne.symm hx), if_neg hx, Option.toList_none, List.append_nil]
          exact ht.table x
      · rcases List.mem_append.mp hj with hold | hnew
        · exact ht.recorded j hold
        · obtain rfl := List.mem_singleton.mp hnew
          exact (List.getElem?_eq_some_iff.mp hi).1
      · by_cases hj : j = i
        · subst hj
          by_cases hx : hs.caller = x
          · simp [hi, hx]
          · simp [hi, hx, ht.writers x j]
        · rw [List.mem_append, ht.writers x j]
          split <;> simp [hj]

theorem track_step (e : Event) :
    Track nodes (secrets ++ e.secret.toList) (fun x => written x ++ (writesAt x h e).toList) (h.step e) := by
  cases e with
  | request caller now address namespaces tok secret =>
    exact track_request ht caller now address namespaces tok secret
  | record i now => simpa [Event.secret] using track_record ht i now

omit ht in
theorem track_run (hfresh : ∀ x, (nodes x).sessions.get? (nodes x.other).nodeId = none) (es : List Event) :
    Track nodes (es.filterMap Event.secret) (fun x => writes { nodes } x es) (run step { nodes } es) := by
  refine run_induct (I := fun es h => Track nodes (es.filterMap Event.secret)
    (fun x => writes { nodes } x es) h) ?_ (fun pre e ih => ?_) es
  · refine ⟨fun x => rfl, fun x => rfl, rfl, by simp, fun x => ?_, by simp, by simp [writes, observed]⟩
    rw [hfresh x]
    rfl
  · have hnext := track_step ih e
    have hwrites : ∀ x, writes { nodes } x (pre ++ [e]) =
        writes { nodes } x pre ++ (writesAt x (run step { nodes } pre) e).toList := by
      intro x
      rw [writes, observed_append]
      simp [observed, writes]
    simp only [hwrites, List.filterMap_append]
    cases hsecret : e.secret with
    | none | some => simpa [hsecret] using hnext

/-! ## Agreement -/

/-- `x` accepts the secret that `y` has stored for it, so a keepalive with it refreshes
the HOLD timer of the session with `y`. -/
def Accepts (x y : ClusterStore) : Prop :=
  ∀ peer, y.sessions.get? x.nodeId = some peer →
    x.authed y.nodeId peer.token = true ∧
      ∀ now sess, (x.handleKeepalive now y.nodeId peer.token).2.sessions.get? y.nodeId = some sess →
        sess.lastSeen = now.mono

omit ht in
theorem accepts_iff {x y : ClusterStore} :
    Accepts x y ↔ ∀ peer, y.sessions.get? x.nodeId = some peer → x.authed y.nodeId peer.token = true := by
  refine forall₂_congr fun peer _ => ⟨And.left, fun hauthed => ⟨hauthed, fun now sess hsess => ?_⟩⟩
  simp only [ClusterStore.handleKeepalive, hauthed, Bool.not_true, Bool.false_eq_true, if_false,
    ClusterStore.get?_touchPeer] at hsess
  obtain ⟨p, -, rfl⟩ := Option.map_eq_some_iff.mp hsess
  simp

/-- What a node has stored for the other: nothing, or a session with or without a
secret. -/
def stored (x y : ClusterStore) : Option (Option String) := (x.sessions.get? y.nodeId).map Peer.token

omit ht in
theorem accepts_iff_stored {x y : ClusterStore} (hauth : x.authStore ≠ none) :
    Accepts x y ↔ ∀ t, stored y x = some t → stored x y = some t ∧ t ≠ none := by
  have hsome : x.authStore.isNone = false :=
    Option.isNone_eq_false_iff.mpr (Option.isSome_iff_ne_none.mpr hauth)
  have hauthed : ∀ t, x.authed y.nodeId t = true ↔ stored x y = some t ∧ t ≠ none := by
    intro t
    unfold ClusterStore.authed stored
    rw [hsome]
    cases x.sessions.get? y.nodeId with
    | none => simp
    | some sess =>
      simp only [Bool.false_eq_true, if_false, Bool.and_eq_true, decide_eq_true_eq, Option.map_some,
        Option.some.injEq]
      refine ⟨fun ⟨htoken, heq⟩ => ⟨heq.symm, ?_⟩, fun ⟨heq, hne⟩ => ⟨?_, heq.symm⟩⟩
      · rw [heq]
        exact Option.isSome_iff_ne_none.mp htoken
      · rw [heq]
        exact Option.isSome_iff_ne_none.mpr hne
  rw [accepts_iff]
  unfold stored
  refine ⟨fun hall t ht => ?_, fun hall peer hpeer => ?_⟩
  · obtain ⟨peer, hpeer, rfl⟩ := Option.map_eq_some_iff.mp ht
    exact (hauthed _).mp (hall peer hpeer)
  · exact (hauthed _).mpr (hall peer.token (by rw [hpeer]; rfl))

omit ht in
theorem stored_agree_iff {x y : ClusterStore} {t t' : Option String} (hx : stored x y = some t) (hy : stored y x = some t') :
    (∀ u, stored y x = some u → stored x y = some u ∧ u ≠ none) ↔ t = t' ∧ t ≠ none := by
  rw [hx, hy]
  refine ⟨fun h => ?_, fun ⟨heq, hne⟩ u hu => ?_⟩
  · obtain ⟨heq, hne⟩ := h t' rfl
    obtain rfl := Option.some.inj heq
    exact ⟨rfl, hne⟩
  · obtain rfl := Option.some.inj hu
    exact ⟨congrArg some heq, heq ▸ hne⟩

omit ht in
theorem token_ne_none {hs : Handshake} : token nodes hs ≠ none ↔ (nodes hs.caller.other).authStore ≠ none := by
  unfold token
  rw [← Option.isSome_iff_ne_none (o := (nodes hs.caller.other).authStore)]
  split
  · simp_all
  · simp_all

theorem Track.index_inj (hnodup : secrets.Nodup) {i j : ℕ}
    {hs hs' : Handshake} (hi : h.opened[i]? = some hs) (hj : h.opened[j]? = some hs')
    (htoken : token nodes hs = token nodes hs') (hne : token nodes hs ≠ none) : i = j := by
  have hsecret : hs.secret = hs'.secret := by
    have hne' : token nodes hs' ≠ none := htoken ▸ hne
    have hauth := Option.isSome_iff_ne_none.mpr (token_ne_none.mp hne)
    have hauth' := Option.isSome_iff_ne_none.mpr (token_ne_none.mp hne')
    simpa [token, hauth, hauth'] using htoken
  obtain ⟨hlt, -⟩ := List.getElem?_eq_some_iff.mp hi
  have hmap : ∀ k : ℕ, secrets[k]? = h.opened[k]?.map Handshake.secret := by
    intro k
    rw [← ht.secrets, List.getElem?_map]
  have hlt' : i < secrets.length := by
    rw [← ht.secrets, List.length_map]
    exact hlt
  refine (List.getElem?_inj hlt' hnodup).mp ?_
  rw [hmap, hmap, hi, hj, Option.map_some, Option.map_some, hsecret]

theorem Track.mem_written (hdone : h.Done) (x : Side) (i : ℕ) : i ∈ written x ↔ i < h.opened.length := by
  refine ⟨ht.lt_of_mem, fun hlt => (ht.writers x i).mpr ?_⟩
  refine ⟨h.opened[i], List.getElem?_eq_getElem hlt, ?_⟩
  rcases Pair.Side.eq_or_eq_other h.opened[i].caller x with hx | hx
  · exact .inr ⟨hdone i hlt, hx⟩
  · exact .inl (by rw [hx, Pair.Side.other_other])

theorem Track.last (hdone : h.Done) (hne : h.opened ≠ []) (x : Side) :
    ∃ i hs, (written x).getLast? = some i ∧ h.opened[i]? = some hs ∧
      stored (h.nodes x) (h.nodes x.other) = some (token nodes hs) := by
  have hmem : 0 ∈ written x := (ht.mem_written hdone x 0).mpr (List.length_pos_iff.mpr hne)
  obtain ⟨i, hi⟩ := Option.ne_none_iff_exists'.mp
    (mt List.getLast?_eq_none_iff.mp (List.ne_nil_of_mem hmem))
  have hlt := ht.lt_of_mem (List.mem_of_getLast? hi)
  have hopened := List.getElem?_eq_getElem hlt
  refine ⟨i, _, hi, hopened, ?_⟩
  rw [stored, ht.node x.other, ht.table x, hi]
  simp [hopened]

omit ht

/-- Two nodes without sessions, any number of connects in both directions, in any
interleaving, with distinct secrets: once all have completed, every node with auth
accepts what the other has stored for it exactly if there is none with auth, or if one
handshake, answered by a node with auth, was the last to write both tables. -/
theorem secrets_agree_iff (nodes : Side → ClusterStore)
    (hfresh : ∀ x, (nodes x).sessions.get? (nodes x.other).nodeId = none) (es : List Event)
    (hsecrets : (es.filterMap Event.secret).Nodup) (hdone : (run step { nodes } es).Done) : (∀ x, (nodes x).authStore ≠ none →
      Accepts ((run step { nodes } es).nodes x) ((run step { nodes } es).nodes x.other)) ↔ (∀ x, (nodes x).authStore = none) ∨
      ∀ i, (writes { nodes } .a es).getLast? = some i → (writes { nodes } .b es).getLast? = some i ∧
        ∃ hs, (run step { nodes } es).opened[i]? = some hs ∧ (nodes hs.caller.other).authStore ≠ none := by
  have ht := track_run hfresh es
  generalize run step { nodes } es = h at ht hdone ⊢
  have haccepts : ∀ x, (nodes x).authStore ≠ none → (Accepts (h.nodes x) (h.nodes x.other) ↔
      ∀ t, stored (h.nodes x.other) (h.nodes x) = some t →
        stored (h.nodes x) (h.nodes x.other) = some t ∧ t ≠ none) :=
    fun x hx => accepts_iff_stored (by rw [ht.auth]; exact hx)
  by_cases hnone : h.opened = []
  · -- Nobody has connected, and neither node has a session with the other.
    have hempty : ∀ x, writes { nodes } x es = [] := by
      intro x
      refine List.eq_nil_iff_forall_not_mem.mpr fun i hi => ?_
      have hlt := ht.lt_of_mem hi
      rw [hnone] at hlt
      cases hlt
    refine iff_of_true (fun x hx => (haccepts x hx).mpr fun t hstored => ?_) (.inr fun i hi => ?_)
    · have htable := ht.table x.other
      rw [hempty, Pair.Side.other_other] at htable
      rw [stored, ht.node x, htable] at hstored
      cases hstored
    · rw [hempty] at hi
      cases hi
  · obtain ⟨i, hs, hlast, hi, hstored⟩ := ht.last hdone hnone .a
    obtain ⟨j, hs', hlast', hj, hstored'⟩ := ht.last hdone hnone .b
    have hboth : ∀ x, (nodes x).authStore ≠ none → (Accepts (h.nodes x) (h.nodes x.other) ↔
        token nodes hs = token nodes hs' ∧ token nodes hs ≠ none) := by
      intro x hx
      rw [haccepts x hx]
      cases x with
      | a => exact stored_agree_iff hstored hstored'
      | b =>
        rw [eq_comm, and_congr_right fun heq => by rw [← heq]]
        exact stored_agree_iff hstored' hstored
    have hsame : (token nodes hs = token nodes hs' ∧ token nodes hs ≠ none) ↔
        (∀ k, (writes { nodes } .a es).getLast? = some k → (writes { nodes } .b es).getLast? = some k ∧
          ∃ hs, h.opened[k]? = some hs ∧ (nodes hs.caller.other).authStore ≠ none) := by
      rw [hlast, hlast']
      refine ⟨fun ⟨heq, hne⟩ k hk => ?_, fun hall => ?_⟩
      · obtain rfl := Option.some.inj hk
        exact ⟨congrArg some (ht.index_inj hsecrets hi hj heq hne).symm, hs, hi, token_ne_none.mp hne⟩
      · obtain ⟨hk, hs'', hi', hauth⟩ := hall i rfl
        obtain rfl := Option.some.inj hk
        obtain rfl := Option.some.inj (hi.symm.trans hj)
        obtain rfl := Option.some.inj (hi.symm.trans hi')
        exact ⟨rfl, token_ne_none.mpr hauth⟩
    rw [← hsame]
    refine ⟨fun hall => ?_, fun hor x hx => ?_⟩
    · by_cases hall' : ∀ x, (nodes x).authStore = none
      · exact .inl hall'
      · obtain ⟨x, hx⟩ := not_forall.mp hall'
        exact .inr ((hboth x hx).mp (hall x hx))
    · rcases hor with hno | hagree
      · exact absurd (hno x) hx
      exact (hboth x hx).mpr hagree

def authNode (node : String) : ClusterStore where
  state := { nodeId := node }
  authStore := some ⟨fun _ => none⟩

def authNodes : Side → ClusterStore
  | .a => authNode "A"
  | .b => authNode "B"

theorem authNodes_fresh (x : Side) : (authNodes x).sessions.get? (authNodes x.other).nodeId = none := by
  cases x <;> rfl

theorem authNodes_auth (x : Side) : (authNodes x).authStore ≠ none := by
  cases x <;> exact Option.some_ne_none _

def oneConnect : List Event :=
  [.request .a ⟨0, 0⟩ "" [] none "s₀", .record 0 ⟨0, 0⟩]

theorem secrets_agree_sample :
    Accepts ((run step { nodes := authNodes } oneConnect).nodes .a)
        ((run step { nodes := authNodes } oneConnect).nodes .b) ∧
      Accepts ((run step { nodes := authNodes } oneConnect).nodes .b)
        ((run step { nodes := authNodes } oneConnect).nodes .a) := by
  have hagree := (secrets_agree_iff authNodes authNodes_fresh oneConnect (by decide)
    (by unfold Done; decide)).mpr (.inr fun i hi => ?_)
  · exact ⟨hagree .a (authNodes_auth .a), hagree .b (authNodes_auth .b)⟩
  · obtain rfl : 0 = i := Option.some.inj ((by decide : (writes { nodes := authNodes } .a oneConnect).getLast? =
      some 0).symm.trans hi)
    exact ⟨by decide, _, rfl, authNodes_auth .b⟩

/-- The two nodes connect to each other: both answer before either records. -/
def crossing : List Event :=
  [.request .a ⟨0, 0⟩ "" [] none "s₀", .request .b ⟨0, 0⟩ "" [] none "s₁", .record 0 ⟨0, 0⟩,
    .record 1 ⟨0, 0⟩]

/-- Each node ends with the secret that it was handed itself. -/
theorem secrets_crossed : ¬ ∀ (nodes : Side → ClusterStore), (nodes .a).nodeId ≠ (nodes .b).nodeId →
      (∀ x, (nodes x).sessions.get? (nodes x.other).nodeId = none) → ∀ es : List Event,
      (es.filterMap Event.secret).Nodup → (run step { nodes } es).Done → ∀ x, (nodes x).authStore ≠ none →
      Accepts ((run step { nodes } es).nodes x) ((run step { nodes } es).nodes x.other) := by
  intro h
  have haccepts := h authNodes (by decide) authNodes_fresh crossing (by decide) (by unfold Done; decide) .a
    (authNodes_auth .a)
  exact absurd (haccepts _ rfl).1 (by decide)

end Handshakes

end AgentProtocol
