-- SUMMARY: One node's control-plane operations interleaved in any order: the versions in its roster go back only where a record is assigned without a comparison.
import AgentProtocol.Lib.Thread
import AgentProtocol.Cluster.Control
import AgentProtocol.Cluster.Integrity

/-!
# Roster versions

The operations of one node run as threads, and their sections interleave. Peers are not
modelled here: what they answer to a `join`, what they push and what anti-entropy pulls
is arbitrary.

`merge`, `set_remove` and `handle_evict_self` compare with what the roster holds in the
section that writes. `adopt` mints a version in one section and assigns the record in a
later one, and `set_add` assigns a record under the version of an answer that arrived
after a round trip; neither looks at what the roster holds by then.
-/

namespace AgentProtocol

open Lib

/-- What a thread of one node does next. -/
inductive Move where
  | sec (s : Section)
  | ask (address : String) (body : JoinRequest)
  | tell (msg : Message)

namespace MembershipStore

/-- Only sections change the node. -/
def move (m : MembershipStore) (r : Reply) : Move → MembershipStore
  | .sec s => m.act r.toInput s
  | .ask _ _ => m
  | .tell _ => m

abbrev NodeThread := Thread MembershipStore Reply Move

/-- Operations as threads of one node whose peers may answer anything. -/
def openHost : Host NodeThread where
  atomic s k := .step (.sec s) fun m r => k m r.now
  join address body k := .step (.ask address body) fun _ r => k r.answer
  tell msg k := .step (.tell msg) fun _ _ => k

/-- A node and the operations that it is asked to run. -/
def serving (m : MembershipStore) (commands : List Command) : Pool MembershipStore Reply Move where
  state := m
  threads := commands.map fun command => openHost.serve command (fun _ => .done) .done

/-! ## Versions -/

def held (m : MembershipStore) (node : String) : Option Version := (m.roster.get? node).map (·.version)

/-- No record that stays goes back. -/
def NotBack (m m' : MembershipStore) : Prop :=
  ∀ node v v', m.held node = some v → m'.held node = some v' → v ≤ v'

variable {m m' : MembershipStore}

theorem NotBack.of_roster (h : m'.roster = m.roster) : NotBack m m' := by
  intro node v v' hv hv'
  rw [held, h] at hv'
  exact (Option.some.inj (hv.symm.trans hv')).le

theorem NotBack.of_filter {p : MembershipRecord → Bool} (h : m'.roster = m.roster.filter p) : NotBack m m' := by
  intro node v v' hv hv'
  rw [held, h, Table.get?_filter] at hv'
  obtain ⟨rec, hrec, rfl⟩ := Option.map_eq_some_iff.mp hv'
  rw [held, (Option.filter_eq_some_iff.mp hrec).1] at hv
  exact (Option.some.inj hv).ge

theorem NotBack.of_insert {rec : MembershipRecord}
    (h : m'.roster = m.roster.insert rec) (hle : ∀ v, m.held rec.nodeId = some v → v ≤ rec.version) : NotBack m m' := by
  intro node v v' hv hv'
  rw [held, h, Table.get?_insert] at hv'
  split at hv'
  · rename_i hnode
    subst hnode
    obtain rfl := Option.some.inj hv'
    exact hle v hv
  · exact (Option.some.inj (hv.symm.trans hv')).le

/-- An own record outside any cluster is within the clock, so that forming a cluster
leads to a later one. Records that are assigned name a cluster. -/
def OwnBehind (m : MembershipStore) : Prop :=
  ∀ own, m.roster.get? m.nodeId = some own → own.clusterId = none → own.version.ms ≤ m.store.state.versionClock

/-- A move that assigns a record happens while the roster holds no later one. -/
def Careful (m : MembershipStore) : Move → Prop
  | .sec (.assign nodeId _ _ version) => ∀ v ∈ m.held nodeId, v ≤ version
  | _ => True

instance (m : MembershipStore) (e : Move) : Decidable (m.Careful e) := by
  unfold Careful
  split <;> infer_instance

variable {v : Version}

theorem OwnBehind.le_mint {m : MembershipStore} (h : m.OwnBehind) (hcid : m.clusterId = none) (now : Now)
    (hv : m.held m.nodeId = some v) : v ≤ (m.store.nextVersion now).1 := by
  obtain ⟨own, hown, rfl⟩ := Option.map_eq_some_iff.mp hv
  have hnone : own.clusterId = none := by rwa [clusterId, hown] at hcid
  exact (Version.lt_of_ms_lt ((h own hown hnone).trans_lt (m.store.lt_nextTs now))).le

theorem le_tombstone (m : MembershipStore) (now : Now) (node : String) (clusterId : Option String)
    (address : String) (hv : m.held node = some v) : v ≤ (m.tombstone now node clusterId address).1.version := by
  obtain ⟨rec, hrec, rfl⟩ := Option.map_eq_some_iff.mp hv
  have hfloor : rec.version.ms < (m.tombstone now node clusterId address).1.version.ms := by
    simp only [tombstone, hrec]
    exact m.store.lt_nextVersionAfter now rec.version.ms
  exact (Version.lt_of_ms_lt hfloor).le

theorem act_notBack {m : MembershipStore} (hown : m.OwnBehind) (i : Input) {s : Section} (hs : m.Careful (.sec s)) :
    NotBack m (m.act i s) := by
  cases s with
  | form newId =>
    simp only [act, form]
    split
    · exact NotBack.of_roster rfl
    · rename_i hcid
      exact NotBack.of_insert rfl fun v hv => hown.le_mint hcid i.now hv
  | own =>
    simp only [act, myRecord]
    split
    · exact NotBack.of_roster rfl
    · rename_i habsent
      exact NotBack.of_insert rfl fun v hv => by simp [held, habsent] at hv
  | assign nodeId clusterId address version => exact NotBack.of_insert rfl hs
  | bury node address | release node => exact NotBack.of_insert rfl fun v hv => m.le_tombstone i.now node _ _ hv
  | merge records =>
    intro node v v' hv hv'
    obtain ⟨v₁, hv₁, hle⟩ := mergeLoop_notBack m.nodeId records m.roster false false node v hv
    exact hle.trans (Option.some.inj (hv₁.symm.trans hv')).le
  | clear => intro node v v' _ hv'; cases hv'
  | forget | collect => exact NotBack.of_filter rfl
  | read | mint | ordain | disconnect | connect | persist => exact NotBack.of_roster rfl

theorem act_ownBehind {m : MembershipStore} (hown : m.OwnBehind) (i : Input) (s : Section) : (m.act i s).OwnBehind := by
  intro own hrec hnone
  rw [act_nodeId] at hrec
  rcases roster_act hrec with hold | hissued | hbrought
  · exact (hown own hold hnone).trans (m.le_clock_act i s)
  · exact (issues_fresh hissued).2.2.le
  · cases s with
    | assign =>
      obtain rfl := List.mem_singleton.mp hbrought
      cases hnone
    | merge records =>
      -- merging leaves the own record alone
      rw [act, mergeLoop_own] at hrec
      exact hown own hrec hnone
    | _ => cases hbrought

/-! ## Runs -/

/-- An event of a pool is careful: if it assigns a record, the roster does not hold a
later one. -/
def CarefulEvent (p : Pool MembershipStore Reply Move) (ev : ℕ × Reply) : Prop :=
  ∀ e ∈ p.pending ev.1, p.state.Careful e

instance (p : Pool MembershipStore Reply Move) (ev : ℕ × Reply) : Decidable (CarefulEvent p ev) :=
  inferInstanceAs (Decidable (∀ e ∈ p.pending ev.1, p.state.Careful e))

/-- The node after a schedule. -/
def after (m : MembershipStore) (commands : List Command) (es : List (ℕ × Reply)) : MembershipStore :=
  (run (Pool.step move) (m.serving commands) es).state

variable {p : Pool MembershipStore Reply Move}

theorem step_ownBehind (hown : p.state.OwnBehind) (ev : ℕ × Reply) : (p.step move ev).state.OwnBehind := by
  rw [Pool.step_state]
  cases p.pending ev.1 with
  | none => exact hown
  | some e =>
    cases e with
    | sec s => exact act_ownBehind hown _ s
    | ask | tell => exact hown

theorem step_notBack {ev : ℕ × Reply} (hown : p.state.OwnBehind)
    (hev : CarefulEvent p ev) : NotBack p.state (p.step move ev).state := by
  rw [Pool.step_state]
  cases hpending : p.pending ev.1 with
  | none => exact NotBack.of_roster rfl
  | some e =>
    cases e with
    | sec s => exact act_notBack hown _ (hev _ hpending)
    | ask | tell => exact NotBack.of_roster rfl

theorem run_notBack (es : List (ℕ × Reply)) : ∀ {p : Pool MembershipStore Reply Move} {node : String} {v v' : Version},
    p.state.OwnBehind → Along (Pool.step move) CarefulEvent p es →
    (∀ mid, mid <+: es → ((run (Pool.step move) p mid).state.held node).isSome) →
    p.state.held node = some v → (run (Pool.step move) p es).state.held node = some v' → v ≤ v' := by
  induction es with
  | nil => exact fun _ _ _ hv hv' => (Option.some.inj (hv.symm.trans hv')).le
  | cons ev es ih =>
    intro p node v v' hown hes hkept hv hv'
    -- the record is there after the first event, so the step and the rest can be chained
    obtain ⟨v₁, hv₁⟩ := Option.isSome_iff_exists.mp (hkept [ev] (by simp))
    have hfirst : v ≤ v₁ := step_notBack hown hes.1 node v v₁ hv hv₁
    have hrest : v₁ ≤ v' := by
      apply ih (step_ownBehind hown ev) hes.2 _ hv₁ hv'
      exact fun mid hmid => hkept (ev :: mid) (List.cons_prefix_cons.mpr ⟨rfl, hmid⟩)
    exact hfirst.trans hrest

theorem initFromState_ownBehind (store : ClusterStore) (now : Now) : (initFromState store now).OwnBehind := by
  unfold initFromState
  split
  · exact fun own hrec => nomatch hrec
  · intro own hrec hnone
    obtain rfl := Option.some.inj ((rejoin_own _ now _ _).symm.trans hrec)
    cases hnone

/-- A node is asked to add a member, and is told of the removal of that member. -/
def addAndRemoval : List Command :=
  [.setAdd [{ address := "m" }] none "c",
    .setSync "b" [.record
      { nodeId := "m", clusterId := some "c", address := "m", version := ⟨20, "b"⟩, removed := true }] none]

/-- Thread `i` goes on; if it waits for a `join`, the member has joined at time 10. -/
def goOn (i : ℕ) : ℕ × Reply :=
  (i, { now := ⟨0, 1⟩, peers := deafTransport.toTransport, answer := .ok (.accepted "m" "c" ⟨10, "m"⟩) })

end MembershipStore

end AgentProtocol
