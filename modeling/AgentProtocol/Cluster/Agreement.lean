-- SUMMARY: Nodes that hold a membership record of one node under one version hold the same record, as long as members are added under the addresses they advertise.
import AgentProtocol.Cluster.Network
import AgentProtocol.Cluster.Integrity

/-!
# Roster agreement

Merging compares versions only, so a version must determine its record. Whoever makes up
a record stamps it with a version that no record bears yet, and everything else is copied,
with one exception: the record that `set_add` files for a new member has the version of the
member's own record but the address from the request.
-/

namespace AgentProtocol

open Lib

def Message.records : Message → List MembershipRecord
  | .sync _ records _ => records.filterMap WireRecord.fromDict
  | .evict .. => []
  | .evictSelf .. => []

namespace World

/-- Rosters and messages hold issued records only, and a version determines its record. -/
structure Consistent (w : World) : Prop where
  ids : ∀ i, (w.nodes i).nodeId = i
  rosters : ∀ i node rec, (w.nodes i).roster.get? node = some rec → rec ∈ w.issued
  soup : ∀ p ∈ w.soup, ∀ rec ∈ p.2.records, rec ∈ w.issued
  stamped : ∀ rec ∈ w.issued, rec.version.ms ≤ (w.nodes rec.version.node).store.state.versionClock
  unique : ∀ a ∈ w.issued, ∀ b ∈ w.issued, a.nodeId = b.nodeId → a.version = b.version → a = b

/-- What threads rely on: what was issued stays so, and addresses do not change. -/
structure Grows (w w' : World) : Prop where
  issued : ∀ rec ∈ w.issued, rec ∈ w'.issued
  advertise : ∀ i, (w'.nodes i).store.advertise = (w.nodes i).store.advertise

theorem Grows.refl (w : World) : Grows w w := ⟨fun _ h => h, fun _ => rfl⟩

theorem Grows.trans (a b c : World) (h₁ : Grows a b) (h₂ : Grows b c) : Grows a c :=
  ⟨fun rec h => h₂.issued rec (h₁.issued rec h), fun i => (h₂.advertise i).trans (h₁.advertise i)⟩

/-- A member is added under the address that it advertises. -/
def Given (w : World) (r : Signal) : NetAct → Prop
  | .dial address => ∀ other ∈ r.target, (w.nodes other).store.advertise = address
  | _ => True

/-! ## Sections -/

theorem update_clock (w : World) (i : Input) (node : String) (s : Section) (other : String) :
    (w.nodes other).store.state.versionClock ≤
      (Function.update w.nodes node ((w.nodes node).act i s) other).store.state.versionClock := by
  rw [Function.update_apply]
  split
  · rename_i h
    subst h
    exact (w.nodes other).le_clock_act i s
  · exact le_refl _

theorem Consistent.section {w : World} (h : w.Consistent) (r : Signal) (node : String) {s : Section}
    (hbrought : ∀ rec ∈ MembershipStore.brought s, rec ∈ w.issued) : (w.exec r (.at node s)).Consistent := by
  have hfresh : ∀ rec ∈ (w.nodes node).issues r.now s, rec.version.node = node ∧
      (w.nodes node).store.state.versionClock < rec.version.ms ∧
      rec.version.ms ≤ ((w.nodes node).act r.toInput s).store.state.versionClock := by
    intro rec hrec
    obtain ⟨hnode, hlt, heq⟩ := MembershipStore.issues_fresh hrec
    exact ⟨hnode.trans (h.ids node), hlt, heq.le⟩
  -- a record that was issued before has an earlier version
  have hearlier : ∀ rec ∈ w.issued, ∀ new ∈ (w.nodes node).issues r.now s, rec.version ≠ new.version := by
    intro rec hrec new hnew heq
    obtain ⟨hnode, hlt, -⟩ := hfresh new hnew
    have hle := h.stamped rec hrec
    rw [heq, hnode] at hle
    exact absurd hle (not_le.mpr hlt)
  refine ⟨fun i => ?_, fun i n rec hrec => ?_, fun p hp rec hrec => ?_, fun rec hrec => ?_, ?_⟩
  · simp only [exec, Function.update_apply]
    split
    · rename_i hi
      rw [MembershipStore.act_nodeId, h.ids, hi]
    · exact h.ids i
  · simp only [exec, Function.update_apply] at hrec ⊢
    split at hrec
    · rcases MembershipStore.roster_act hrec with hold | hissued | hb
      · exact List.mem_append_left _ (h.rosters node n rec hold)
      · exact List.mem_append_right _ hissued
      · exact List.mem_append_left _ (hbrought rec hb)
    · exact List.mem_append_left _ (h.rosters i n rec hrec)
  · exact List.mem_append_left _ (h.soup p hp rec hrec)
  · rcases List.mem_append.mp hrec with hold | hnew
    · exact (h.stamped rec hold).trans (w.update_clock r.toInput node s _)
    · obtain ⟨hnode, -, hle⟩ := hfresh rec hnew
      simpa [exec, hnode] using hle
  · intro a ha b hb hid hversion
    rcases List.mem_append.mp ha with ha | ha
    · rcases List.mem_append.mp hb with hb | hb
      · exact h.unique a ha b hb hid hversion
      · exact absurd hversion (hearlier a ha b hb)
    · rcases List.mem_append.mp hb with hb | hb
      · exact absurd hversion.symm (hearlier b hb a ha)
      exact MembershipStore.issues_unique ha hb

theorem grows_section (w : World) (r : Signal) (node : String) (s : Section) : Grows w (w.exec r (.at node s)) := by
  refine ⟨fun rec hrec => List.mem_append_left _ hrec, fun i => ?_⟩
  simp only [exec, Function.update_apply]
  split
  · rename_i hi
    rw [MembershipStore.act_advertise, hi]
  · rfl

variable {msg : Message}

theorem Consistent.send {w : World} (h : w.Consistent) (r : Signal) (node : String)
    (hmsg : ∀ rec ∈ msg.records, rec ∈ w.issued) : (w.exec r (.send node msg)).Consistent := by
  refine { h with soup := fun p hp rec hrec => ?_ }
  rcases List.mem_append.mp hp with hold | hnew
  · exact h.soup p hold rec hrec
  · obtain rfl := List.mem_singleton.mp hnew
    exact hmsg rec hrec

/-! ## Operations -/

/-- Whatever the others do, the thread files and sends issued records only. -/
abbrev Fair (t : NetThread) (w : World) : Prop := t.Safe exec Given Consistent Grows (fun _ => True) w

theorem Fair.wait {t : NetThread} {w w' : World} (h : Fair t w) (hw : Grows w w') : Fair t w' :=
  Thread.Safe.wait Grows.trans h hw

def Issued (w : World) (records : List WireRecord) : Prop := ∀ rec ∈ records.filterMap WireRecord.fromDict, rec ∈ w.issued

theorem Issued.wait {w w' : World} {records : List WireRecord} (h : w.Issued records) (hw : Grows w w') :
    w'.Issued records := fun rec hrec => hw.issued rec (h rec hrec)

theorem issued_rows {w : World} (h : w.Consistent) (node : String) {rows : List MembershipRecord}
    (hrows : rows ⊆ (w.nodes node).roster.rows) : w.Issued (rows.map MembershipRecord.toDict) := by
  intro rec hrec
  rw [List.filterMap_map] at hrec
  obtain ⟨row, hrow, heq⟩ := List.mem_filterMap.mp hrec
  obtain rfl := Option.some.inj heq
  exact h.rosters node _ row (Table.get?_eq_some.mpr ⟨hrows hrow, rfl⟩)

theorem issued_singleton {w : World} {rec : MembershipRecord} (h : rec ∈ w.issued) : w.Issued [rec.toDict] := by
  intro rec' hrec'
  obtain rfl := List.mem_singleton.mp hrec'
  exact h

theorem exec_read (w : World) (r : Signal) (node : String) : w.exec r (.at node .read) = w := by
  simp [exec, MembershipStore.act, MembershipStore.issues]

structure Serves (H : Host NetThread) (node : String) : Prop where
  atomic : ∀ s k, H.atomic s k = .step (.at node s) fun w r => k (w.nodes node) r.now
  tell : ∀ msg k, H.tell msg k = .step (.send node msg) fun _ _ => k

theorem callee_serves (node : String) : Serves (callee node) node := ⟨fun _ _ => rfl, fun _ _ => rfl⟩

theorem caller_serves (node : String) : Serves (caller node) node := ⟨fun _ _ => rfl, fun _ _ => rfl⟩

/-- What follows an accepted join is fair as soon as the record of the node that joined was issued. -/
def FairAccepted (node address clusterId : String) (k : JoinResponse → NetThread) (w : World) : Prop :=
  ∀ w' version, Grows w w' → { nodeId := node, clusterId := some clusterId, address, version } ∈ w'.issued →
    Fair (k (.accepted node clusterId version)) w'

theorem FairAccepted.wait {node address clusterId : String} {k : JoinResponse → NetThread} {w w' : World}
    (h : FairAccepted node address clusterId k w) (hw : Grows w w') : FairAccepted node address clusterId k w' :=
  fun w₁ version hw₁ => h w₁ version (Grows.trans _ _ _ hw hw₁)

section Serves

variable {H : Host NetThread} {node : String} (hH : Serves H node) {k : NetThread} {w : World}

include hH

variable {s : Section}

theorem fair_atomic {k : MembershipStore → Now → NetThread} (hbrought : ∀ rec ∈ MembershipStore.brought s, rec ∈ w.issued)
    (hk : ∀ w' r, Grows w w' → w'.Consistent → Fair (k (w'.nodes node) r.now) (w'.exec r (.at node s))) :
    Fair (H.atomic s k) w := by
  rw [hH.atomic]
  intro w' hw hcons r _
  refine ⟨hcons.section r node fun rec hrec => hw.issued rec (hbrought rec hrec), grows_section w' r node s, ?_⟩
  exact hk w' r hw hcons

theorem fair_read {k : MembershipStore → Now → NetThread}
    (hk : ∀ w' now, Grows w w' → w'.Consistent → Fair (k (w'.nodes node) now) w') : Fair (H.atomic .read k) w := by
  refine fair_atomic hH (by simp [MembershipStore.brought]) fun w' r hw hcons => ?_
  rw [exec_read]
  exact hk w' r.now hw hcons

theorem fair_run (hbrought : ∀ rec ∈ MembershipStore.brought s, rec ∈ w.issued) (hk : Fair k w) : Fair (H.run s k) w :=
  fair_atomic hH hbrought fun w' r hw _ => hk.wait (Grows.trans _ _ _ hw (grows_section w' r node s))

theorem fair_plain (hs : MembershipStore.brought s = []) (hk : Fair k w) : Fair (H.run s k) w :=
  fair_run hH (by simp [hs]) hk

theorem fair_tell {msg : Message} (hmsg : ∀ rec ∈ msg.records, rec ∈ w.issued) (hk : Fair k w) : Fair (H.tell msg k) w := by
  rw [hH.tell]
  intro w' hw hcons r _
  have hgrows : Grows w' (w'.exec r (.send node msg)) := ⟨fun _ h => h, fun _ => rfl⟩
  exact ⟨hcons.send r node fun rec hrec => hw.issued rec (hmsg rec hrec), hgrows, hk.wait (Grows.trans _ _ _ hw hgrows)⟩

theorem fair_disconnectAll (nodes : List String) (hk : Fair k w) : Fair (H.disconnectAll nodes k) w :=
  Thread.safe_each (fun _ _ _ _ _ hk => fair_plain hH rfl hk) w (Grows.refl w) hk

theorem fair_becomeStandalone (hk : Fair k w) : Fair (H.becomeStandalone k) w := by
  refine fair_atomic hH (by simp [MembershipStore.brought]) fun w' r hw _ => ?_
  apply fair_disconnectAll hH
  exact fair_plain hH rfl (hk.wait (Grows.trans _ _ _ hw (grows_section w' r node .clear)))

variable {records : List WireRecord}

theorem fair_merge (hrecords : w.Issued records) (hk : Fair k w) : Fair (H.merge records k) w := by
  refine fair_atomic hH hrecords fun w' r hw _ => ?_
  have hk' := hk.wait (Grows.trans _ _ _ hw (grows_section w' r node (.merge records)))
  dsimp only
  split
  · exact fair_becomeStandalone hH hk'
  · split
    · exact fair_plain hH rfl hk'
    · exact hk'

theorem fair_pushRecords (hrecords : w.Issued records) (hk : Fair k w) : Fair (H.pushRecords records k) w := by
  refine fair_read hH fun w₁ _ hw₁ _ => fair_read hH fun w₂ _ hw₂ _ => ?_
  have hw := Grows.trans _ _ _ hw₁ hw₂
  refine Thread.safe_each (fun rec _ k w₃ hw₃ hk => ?_) w₂ (Grows.refl w₂) (hk.wait hw)
  refine fair_read hH fun w₄ _ hw₄ _ => ?_
  exact fair_tell hH (hrecords.wait (Grows.trans _ _ _ hw (Grows.trans _ _ _ hw₃ hw₄))) (Fair.wait hk hw₄)

theorem fair_reconcileConnections (hk : Fair k w) : Fair (H.reconcileConnections k) w := by
  refine fair_read hH fun w₁ _ hw₁ _ => ?_
  split
  · exact hk.wait hw₁
  · refine fair_read hH fun w₂ _ hw₂ _ => fair_read hH fun w₃ _ hw₃ _ => ?_
    have hk₃ := hk.wait (Grows.trans _ _ _ hw₁ (Grows.trans _ _ _ hw₂ hw₃))
    refine Thread.safe_each (fun _ _ _ _ _ hk => fair_plain hH rfl hk) w₃ (Grows.refl w₃) ?_
    refine Thread.safe_each (fun _ _ _ _ _ hk => fair_read hH fun w₄ _ hw₄ _ => ?_) w₃ (Grows.refl w₃) hk₃
    split
    · exact fair_plain hH rfl (Fair.wait hk hw₄)
    · exact Fair.wait hk hw₄

theorem fair_leaveOld (old : String) (hk : Fair k w) : Fair (H.leaveOld old k) w := by
  refine fair_read hH fun w₁ _ hw₁ _ => ?_
  refine Thread.safe_each (fun rec _ k w₂ _ hk => fair_read hH fun w₃ _ hw₃ _ => ?_) w₁ (Grows.refl w₁) ?_
  · exact fair_tell hH (by simp [Message.records]) (Fair.wait hk hw₃)
  · apply fair_disconnectAll hH
    exact fair_plain hH rfl (hk.wait hw₁)

theorem fair_pushOwn (hk : Fair k w) : Fair (H.pushOwn k) w := by
  refine fair_atomic hH (by simp [MembershipStore.brought]) fun w' r hw hcons => ?_
  have hgrows := grows_section w' r node .own
  refine fair_pushRecords hH (issued_singleton ?_) (hk.wait (Grows.trans _ _ _ hw hgrows))
  cases hown : (w'.nodes node).roster.get? (w'.nodes node).nodeId with
  | some own =>
    have heq : ((w'.nodes node).myRecord r.now).1 = own := by simp [MembershipStore.myRecord, hown]
    rw [heq]
    exact hgrows.issued own (hcons.rosters node _ own hown)
  | none => exact List.mem_append_right _ (by simp [MembershipStore.issues, hown])

variable {roster : List WireRecord} {clusterId : String}

theorem fair_enter {k : JoinResponse → NetThread} (hroster : w.Issued roster)
    (hk : FairAccepted node (w.nodes node).store.advertise clusterId k w) : Fair (H.enter clusterId roster k) w := by
  refine fair_atomic hH (by simp [MembershipStore.brought]) fun w' r hw hcons => ?_
  have hgrows := Grows.trans _ _ _ hw (grows_section w' r node (.ordain clusterId))
  have hissued : { nodeId := node, clusterId := some clusterId, address := (w.nodes node).store.advertise
                   version := ((w'.nodes node).store.nextVersion r.now).1 } ∈
      (w'.exec r (.at node (.ordain clusterId))).issued := by
    refine List.mem_append_right _ (List.mem_singleton.mpr ?_)
    rw [← hw.advertise node, hcons.ids node]
  rw [hcons.ids node, hw.advertise node]
  refine fair_run hH (by simpa [MembershipStore.brought] using hissued) ?_
  refine fair_merge hH (hroster.wait hgrows) (fair_plain hH rfl ?_)
  exact fair_reconcileConnections hH (fair_pushOwn hH (hk _ _ hgrows hissued))

theorem fair_adopt {k : JoinResponse → NetThread} (hroster : w.Issued roster)
    (hk : FairAccepted node (w.nodes node).store.advertise clusterId k w) : Fair (H.adopt clusterId roster k) w := by
  refine fair_read hH fun w₁ _ hw₁ _ => ?_
  have henter : Fair (H.enter clusterId roster k) w₁ :=
    fair_enter hH (hroster.wait hw₁) (hw₁.advertise node ▸ hk.wait hw₁)
  split
  · exact henter
  · split
    · exact henter
    · exact fair_leaveOld hH _ henter

theorem fair_handleJoin {body : JoinRequest} {k : JoinResponse → NetThread} (hroster : w.Issued body.roster)
    (hrejected : ∀ error, Fair (k (.rejected error)) w)
    (hk : FairAccepted node (w.nodes node).store.advertise body.clusterId k w) : Fair (H.handleJoin body k) w := by
  refine fair_read hH fun w₁ _ hw₁ _ => ?_
  split
  · exact (hrejected _).wait hw₁
  · split
    · exact (hrejected _).wait hw₁
    · exact fair_adopt hH (hroster.wait hw₁) (hw₁.advertise node ▸ hk.wait hw₁)

variable (fromNode : String) (token : Option String)

theorem fair_handleEvictSelf (hk : Fair k w) : Fair (H.handleEvictSelf fromNode token k) w := by
  refine fair_read hH fun w₁ _ hw₁ _ => ?_
  split
  · exact hk.wait hw₁
  · refine fair_atomic hH (by simp [MembershipStore.brought]) fun w₂ r hw₂ _ => ?_
    have hgrows := Grows.trans _ _ _ hw₂ (grows_section w₂ r node (.release fromNode))
    refine fair_plain hH rfl (fair_plain hH rfl (fair_pushRecords hH (issued_singleton ?_) ?_))
    · exact List.mem_append_right _ (by simp [MembershipStore.issues])
    · exact hk.wait (Grows.trans _ _ _ hw₁ hgrows)

theorem fair_handleEvicted (hk : Fair k w) : Fair (H.handleEvicted fromNode token k) w := by
  refine fair_read hH fun w₁ _ hw₁ _ => ?_
  split
  · exact hk.wait hw₁
  · exact fair_becomeStandalone hH (hk.wait hw₁)

theorem fair_serveSetSync (hrecords : w.Issued records) (hk : Fair k w) : Fair (H.serveSetSync fromNode records token k) w := by
  refine fair_read hH fun w₁ _ hw₁ _ => ?_
  split
  · exact hk.wait hw₁
  · exact fair_merge hH (hrecords.wait hw₁) (hk.wait hw₁)

theorem fair_removeMembers {k : List Bool → List WireRecord → NetThread}
    (hk : ∀ w' results tombs, Grows w w' → w'.Issued tombs → Fair (k results tombs) w') (members : List Member) :
    ∀ (w' : World) (results : List Bool) (tombs : List WireRecord), Grows w w' → w'.Issued tombs →
      Fair (H.removeMembers members results tombs k) w' := by
  induction members with
  | nil => exact hk
  | cons member rest ih =>
    intro w' results tombs hw htombs
    unfold Host.removeMembers
    split
    · exact ih w' _ tombs hw htombs
    · refine fair_atomic hH (by simp [MembershipStore.brought]) fun w₁ r hw₁ _ => ?_
      have hgrows := Grows.trans _ _ _ hw₁ (grows_section w₁ r node (.bury member.nodeId member.address))
      refine fair_read hH fun w₂ _ hw₂ _ => fair_tell hH (by simp [Message.records]) (fair_plain hH rfl ?_)
      refine ih w₂ _ _ (Grows.trans _ _ _ hw (Grows.trans _ _ _ hgrows hw₂)) fun rec hrec => ?_
      rw [List.filterMap_append] at hrec
      rcases List.mem_append.mp hrec with hold | hnew
      · exact htombs.wait (Grows.trans _ _ _ hgrows hw₂) rec hold
      · obtain rfl := List.mem_singleton.mp hnew
        exact hw₂.issued _ (List.mem_append_right _ (by simp [MembershipStore.issues]))

theorem fair_setRemove (members : List Member) (w : World) : Fair (H.setRemove members fun _ => .done) w := by
  refine fair_removeMembers hH (fun w' results tombs _ htombs => ?_) members w [] [] (Grows.refl w) (by simp [Issued])
  refine fair_plain hH rfl ?_
  split
  · exact fun _ _ _ => trivial
  · exact fair_pushRecords hH htombs fun _ _ _ => trivial

end Serves

theorem fair_join {node address : String} {body : JoinRequest} {k : Except RpcError JoinResponse → NetThread} {w : World}
    (hroster : w.Issued body.roster) (herror : ∀ w' e, Grows w w' → Fair (k (.error e)) w')
    (hrejected : ∀ w' error, Grows w w' → Fair (k (.ok (.rejected error))) w') (hk : ∀ w' other version, Grows w w' →
      { nodeId := other, clusterId := some body.clusterId, address, version } ∈ w'.issued →
      Fair (k (.ok (.accepted other body.clusterId version))) w') :
    Fair ((caller node).join address body k) w := by
  have hhangUp : ∀ {w₁ : World} {answer : JoinResponse}, Grows w w₁ → Fair (k (.ok answer)) w₁ →
      Fair (.step .hangUp fun _ r => k (if r.lost then .error .transportError else .ok answer)) w₁ := by
    intro w₁ answer hw₁ hanswer w₂ hw₂ hcons r _
    refine ⟨hcons, Grows.refl w₂, ?_⟩
    dsimp only
    split
    · exact herror w₂ _ (Grows.trans _ _ _ hw₁ hw₂)
    · exact hanswer.wait hw₂
  intro w₁ hw₁ hcons r hgiven
  refine ⟨hcons, Grows.refl w₁, ?_⟩
  dsimp only
  split
  · exact herror w₁ _ hw₁
  · rename_i other htarget
    have haddress : (w₁.nodes other).store.advertise = address := hgiven other htarget
    refine fair_handleJoin (callee_serves other) (hroster.wait hw₁) (fun error => ?_) fun w₂ version hw₂ hissued => ?_
    · exact hhangUp hw₁ (hrejected w₁ error hw₁)
    · have hw := Grows.trans _ _ _ hw₁ hw₂
      exact hhangUp hw (hk w₂ other version hw (haddress ▸ hissued))

theorem fair_addMembers {node cid : String} {roster : List WireRecord} {token : Option String}
    {k : List AddResult → NetThread} {w : World} (hroster : w.Issued roster)
    (hk : ∀ w' results, Grows w w' → Fair (k results) w') (members : List Member) :
    ∀ (w' : World) (results : List AddResult), Grows w w' →
      Fair ((caller node).addMembers cid roster token members results k) w' := by
  induction members with
  | nil => exact fun w' results => hk w' results
  | cons member rest ih =>
    intro w' results hw
    unfold Host.addMembers
    split
    · exact ih w' _ hw
    · refine fair_join (hroster.wait hw) (fun w₁ _ hw₁ => ?_) (fun w₁ _ hw₁ => ?_) fun w₁ other version hw₁ hissued => ?_
      · exact ih w₁ _ (Grows.trans _ _ _ hw hw₁)
      · exact ih w₁ _ (Grows.trans _ _ _ hw hw₁)
      · refine fair_run (caller_serves node) (fun rec hrec => ?_) (ih w₁ _ (Grows.trans _ _ _ hw hw₁))
        obtain rfl := List.mem_singleton.mp hrec
        exact hissued

theorem fair_setAdd (node : String) (members : List Member) (token : Option String) (newId : String) (w : World) :
    Fair ((caller node).setAdd members token newId fun _ _ => .done) w := by
  have hserves := caller_serves node
  refine fair_atomic hserves (by simp [MembershipStore.brought]) fun w₁ r _ hcons => ?_
  -- the roster that goes along is that of the node once it is in a cluster
  have hcons₂ := hcons.section r node (s := .form newId) (by simp [MembershipStore.brought])
  have hform : (w₁.nodes node).form r.now newId = (w₁.exec r (.at node (.form newId))).nodes node := by
    simp [exec, MembershipStore.act]
  rw [hform]
  refine fair_addMembers (issued_rows hcons₂ node (List.filter_subset_self _)) (fun w₂ results _ => ?_) members _ []
    (Grows.refl _)
  refine fair_plain hserves rfl (fair_reconcileConnections hserves (fair_read hserves fun w₃ _ _ hcons₃ => ?_))
  refine fair_pushRecords hserves (issued_rows hcons₃ node (fun _ h => h)) (fair_read hserves fun w₄ _ _ _ => ?_)
  exact fun _ _ _ => trivial

theorem fair_reconcileWith (node other : String) (w : World) : Fair (reconcileWith node other) w := by
  refine fair_read (callee_serves node) fun w₁ _ _ _ => ?_
  split
  · exact fun _ _ _ => trivial
  · refine fair_read (callee_serves other) fun w₂ _ _ _ => fair_read (callee_serves node) fun w₃ _ _ _ => ?_
    dsimp only
    split
    · exact fun _ _ _ => trivial
    · refine fair_read (callee_serves other) fun w₄ _ _ hcons => ?_
      refine fair_merge (callee_serves node) (fun rec hrec => ?_) fun _ _ _ => trivial
      unfold MembershipStore.serveSetPull at hrec
      split at hrec
      · cases hrec
      obtain ⟨raw, hraw, hdict⟩ := List.mem_filterMap.mp hrec
      obtain ⟨n, -, hn⟩ := List.mem_filterMap.mp hraw
      obtain ⟨rec', hrec', rfl⟩ := Option.map_eq_some_iff.mp hn
      obtain rfl := Option.some.inj hdict
      exact hcons.rosters other n _ hrec'

theorem fair_handler (node sender : String) {w : World} (hmsg : ∀ rec ∈ msg.records, rec ∈ w.issued) :
    Fair (handler node sender msg) w := by
  cases msg with
  | sync address records token => exact fair_serveSetSync (callee_serves node) sender token hmsg fun _ _ _ => trivial
  | evict address cid token => exact fair_handleEvicted (callee_serves node) sender token fun _ _ _ => trivial
  | evictSelf address token => exact fair_handleEvictSelf (callee_serves node) sender token fun _ _ _ => trivial

/-! ## Networks -/

/-- An event is as assumed: whoever is dialled advertises that address. -/
def Addressed (p : Net) : NetEvent → Prop
  | .go thread r => p.Given Given (thread, r)
  | _ => True

instance (w : World) (r : Signal) (e : NetAct) : Decidable (w.Given r e) := by
  unfold Given
  split <;> infer_instance

instance (p : Net) (e : NetEvent) : Decidable (Addressed p e) :=
  match e with
  | .go thread r => inferInstanceAs (Decidable (∀ e ∈ p.pending thread, p.state.Given r e))
  | .setAdd .. => .isTrue trivial
  | .setRemove .. => .isTrue trivial
  | .reconcileConnections _ => .isTrue trivial
  | .reconcileWith .. => .isTrue trivial
  | .collect _ => .isTrue trivial
  | .deliver .. => .isTrue trivial

theorem fair_started {w : World} (h : w.Consistent) (e : NetEvent) : ∀ t ∈ (w.started e).toList, Fair t w := by
  intro t ht
  rw [Option.mem_toList] at ht
  cases e with
  | setAdd node members token newId =>
    obtain rfl := Option.some.inj ht
    exact fair_setAdd node members token newId w
  | setRemove node members =>
    obtain rfl := Option.some.inj ht
    exact fair_setRemove (caller_serves node) members w
  | reconcileConnections node =>
    obtain rfl := Option.some.inj ht
    exact fair_reconcileConnections (caller_serves node) fun _ _ _ => trivial
  | reconcileWith node other =>
    obtain rfl := Option.some.inj ht
    exact fair_reconcileWith node other w
  | collect node =>
    obtain rfl := Option.some.inj ht
    exact fair_plain (caller_serves node) rfl fun _ _ _ => trivial
  | deliver message node =>
    obtain ⟨p, hp, rfl⟩ := Option.map_eq_some_iff.mp ht
    exact fair_handler node p.1 (h.soup p (List.mem_of_getElem? hp))
  | go => cases ht

theorem sound_netStep {p : Net} (hp : p.Sound exec Given Consistent Grows) {e : NetEvent} (he : Addressed p e) :
    (netStep p e).Sound exec Given Consistent Grows := by
  cases e with
  | go thread r => exact Pool.sound_step Grows.refl Grows.trans hp he
  | setAdd | setRemove | reconcileConnections | reconcileWith | collect | deliver =>
    exact Pool.sound_spawn hp (fair_started hp.1 _)

theorem sound_quiet {stores : String → ClusterStore} (hstores : ∀ i, (stores i).nodeId = i) :
    (quiet stores).Sound exec Given Consistent Grows := by
  refine ⟨⟨hstores, ?_, ?_, ?_, ?_⟩, ?_⟩
  · exact fun _ _ _ h => nomatch h
  · exact fun _ h => nomatch h
  · exact fun _ h => nomatch h
  · exact fun _ h => nomatch h
  · exact fun _ h => nomatch h

/-- **Roster agreement**: in every network in which members are added under the addresses
that they advertise, two nodes that hold a record of one node under one version hold the
same record. -/
theorem rosters_agree (stores : String → ClusterStore) (hstores : ∀ i, (stores i).nodeId = i) (es : List NetEvent)
    (hes : Along netStep Addressed (quiet stores) es) (i j node : String) (a b : MembershipRecord)
    (ha : ((run netStep (quiet stores) es).state.nodes i).roster.get? node = some a)
    (hb : ((run netStep (quiet stores) es).state.nodes j).roster.get? node = some b)
    (hversion : a.version = b.version) : a = b := by
  have hsound : (run netStep (quiet stores) es).Sound exec Given Consistent Grows :=
    hes.invariant (sound_quiet hstores) fun _ _ hp he => sound_netStep hp he
  have hnode : a.nodeId = b.nodeId := (Table.key_of_get? ha).trans (Table.key_of_get? hb).symm
  exact hsound.1.unique a (hsound.1.rosters i node a ha) b (hsound.1.rosters j node b hb) hnode hversion

/-- Every node advertises its id. -/
def sampleStores (node : String) : ClusterStore where
  state := { nodeId := node }
  advertise := node

/-- Node `a` adds a member under `address`, which leads to node `m`. -/
def addUnder (address : String) : List NetEvent :=
  .setAdd "a" [{ address }] none "c" :: List.replicate 20
    (.go 0 { now := ⟨0, 7⟩, peers := MembershipStore.deafTransport.toTransport, target := some "m", lost := false })

theorem rosters_agree_sample :
    ∃ a b, ((run netStep (quiet sampleStores) (addUnder "m")).state.nodes "a").roster.get? "m" = some a ∧
      ((run netStep (quiet sampleStores) (addUnder "m")).state.nodes "m").roster.get? "m" = some b ∧
      a.version = b.version ∧ a = b := by
  refine ⟨⟨"m", some "c", "m", ⟨7, "m"⟩, false⟩, ⟨"m", some "c", "m", ⟨7, "m"⟩, false⟩, by decide, by decide, rfl, ?_⟩
  exact rosters_agree sampleStores (fun _ => rfl) (addUnder "m") (by decide) "a" "m" "m" _ _ (by decide) (by decide) rfl

/-- Under another address that leads to the member, the two nodes disagree about where it
is, with the same version. -/
theorem rosters_disagree : ((run netStep (quiet sampleStores) (addUnder "alias")).state.nodes "a").roster.get? "m" =
        some ⟨"m", some "c", "alias", ⟨7, "m"⟩, false⟩ ∧
      ((run netStep (quiet sampleStores) (addUnder "alias")).state.nodes "m").roster.get? "m" =
        some ⟨"m", some "c", "m", ⟨7, "m"⟩, false⟩ := by
  decide

end World

end AgentProtocol
