-- SUMMARY: The heartbeat sweeper against registrations, updates, deletions and revocations, section by section, and when it deletes only what is due.
import AgentProtocol.Heartbeat.Store
import AgentProtocol.Register.Steps

/-!
# The sweeper

The registry and the lease table are separate. A registration with a lease is validated,
committed to the registry and then installed in the table, and the sweeper takes a key out of the
table before it deletes the service. In between anybody else may run, so calls are cut into
their sections here, and what is left of a call is a `Task`.

Beside the state there is a `Watch` for every service: what the registrations, heartbeats,
revocations and restarts of its id say about when it is due. A deletion by the sweeper is `Lawful`
if the entry that it deletes has a time to live and is due.
-/

namespace AgentProtocol.Heartbeat

open Lib Common Register

/-- What is left of a call. -/
inductive Task where
  /-- A registration, after its lease was validated. -/
  | register (dataset : String) (call : Register.Call) (ttl : Option ℤ)
  /-- A registration that is committed, before its lease is installed. -/
  | install (key : LeaseKey) (ttl : ℤ)
  /-- An update, before its commit. -/
  | commit (dataset : String) (new : Entry) (changed : List String)
  /-- A permanent revocation, after its lease was dropped. -/
  | evict (key : LeaseKey) (caller : Option AuthContext)
  /-- A deletion that the sweeper has yet to make. -/
  | hardDelete (key : LeaseKey)

structure Backend where
  datasets : Dict String Registry := ∅
  /-- The lease policies that were set. -/
  configs : Dict String LeaseConfig := ∅
  leases : LeaseTable LeaseKey := ∅
  tasks : List Task := []

inductive Action where
  | registerGeneric (dataset : String) (req : RegisterGenericRequest) (caller : Option AuthContext)
  | registerA2a (dataset : String) (req : RegisterA2ARequest) (caller : Option AuthContext)
  | updateService (dataset serviceId : String) (updates : Updates) (caller : Option AuthContext)
  | deregister (dataset serviceId : String) (caller : Option AuthContext)
  | heartbeat (dataset serviceId : String)
  | revoke (dataset serviceId : String) (permanent : Bool) (caller : Option AuthContext)
  | setLeaseConfig (dataset : String) (enabled : Bool) (minTtl maxTtl gracePeriod : ℤ)
  | sweepTick
  /-- A task goes on. -/
  | resume (i : ℕ)
  | restart (fetch : String → Option AgentCard)

/-- An action and the time at which it happens. -/
abbrev Event := Action × ℚ

def systemCtx : AuthContext := { principalId := "_system", role := .admin }

namespace Backend

def registry (s : Backend) (dataset : String) : Registry := (s.datasets.lookup dataset).getD {}

def leaseConfig (s : Backend) (dataset : String) : LeaseConfig := (s.configs.lookup dataset).getD {}

def entryAt (s : Backend) (key : LeaseKey) : Option Entry := (s.registry key.1).entries.get? key.2

def setRegistry (s : Backend) (dataset : String) (r : Registry) : Backend := { s with datasets := s.datasets.set dataset r }

def addTask (s : Backend) (task : Task) : Backend := { s with tasks := s.tasks ++ [task] }

/-- The first section of a registration: the lease request is validated. -/
def startRegister (s : Backend) (dataset : String) (clientTtl : Option ℤ) (call : Option ℤ → Register.Call) : Backend :=
  match validate (s.leaseConfig dataset) dataset clientTtl with
  | .error _ => s
  | .ok ttl => s.addTask (.register dataset (call ttl) ttl)

/-- The first section of an update and its merge, which may write skill folders. -/
def startUpdate (s : Backend) (dataset serviceId : String) (updates : Updates) (caller : Option AuthContext) : Backend :=
  match (s.registry dataset).readForUpdate serviceId caller with
  | .error _ => s
  | .ok entry =>
    let (result, store) := Registry.applyUpdates (s.registry dataset).store entry updates
    let s := s.setRegistry dataset ((s.registry dataset).withStore store)
    match result with
    | .error _ => s
    | .ok (new, changed) => s.addTask (.commit dataset new changed)

def runDeregister (s : Backend) (dataset serviceId : String) (caller : Option AuthContext) : Backend :=
  s.setRegistry dataset ((s.registry dataset).deregister serviceId caller).2

/-- The service that a registration has committed. -/
def committed : Except Failure Response → Option String
  | .ok (.register serviceId _) => some serviceId
  | _ => none

/-- The next section of a task. -/
def runTask (s : Backend) (now : ℚ) : Task → Backend
  | .register dataset call ttl =>
    let (result, r) := (s.registry dataset).exec call
    let s := s.setRegistry dataset r
    match committed result, ttl with
    | some serviceId, some ttl => s.addTask (.install (dataset, serviceId) ttl)
    | _, _ => s
  | .install key ttl => { s with leases := s.leases.install key ttl (s.leaseConfig key.1).gracePeriod false now }
  | .commit dataset new changed => s.setRegistry dataset ((s.registry dataset).commitUpdate new changed).2
  | .evict key caller => s.runDeregister key.1 key.2 caller
  | .hardDelete key => s.runDeregister key.1 key.2 (some systemCtx)

/-- A restart loses what is in memory and recovers the leases of the entries that it loads. -/
def restart (s : Backend) (fetch : String → Option AgentCard) (now : ℚ) : Backend :=
  let datasets := s.datasets.mapValues fun r => r.restart fetch
  { s with
    datasets, leases := recoverFromPersisted s.leaseConfig now (persistedLeases datasets), tasks := [] }

def step (s : Backend) (e : Event) : Backend :=
  match e.1 with
  | .registerGeneric dataset req caller =>
    s.startRegister dataset req.leaseTtl fun leaseTtl => ⟨.registerGeneric { req with leaseTtl }, caller⟩
  | .registerA2a dataset req caller =>
    s.startRegister dataset req.leaseTtl fun leaseTtl => ⟨.registerA2a { req with leaseTtl }, caller⟩
  | .updateService dataset serviceId updates caller => s.startUpdate dataset serviceId updates caller
  | .deregister dataset serviceId caller => s.runDeregister dataset serviceId caller
  | .heartbeat dataset serviceId => { s with leases := (s.leases.renew (dataset, serviceId) e.2).getD s.leases }
  | .revoke dataset serviceId permanent caller =>
    if permanent then { s with leases := s.leases.drop (dataset, serviceId) }.addTask (.evict (dataset, serviceId) caller)
    else { s with leases := (s.leases.revoke (dataset, serviceId) false e.2).2 }
  | .setLeaseConfig dataset enabled minTtl maxTtl gracePeriod =>
    match s.datasets.lookup dataset, LeaseConfig.make? enabled minTtl maxTtl gracePeriod with
    | some _, some cfg => { s with configs := s.configs.set dataset cfg }
    | _, _ => s
  | .sweepTick =>
    { s with leases := s.leases.swept e.2, tasks := s.tasks ++ (s.leases.toDelete e.2).map .hardDelete }
  | .resume i =>
    match s.tasks[i]? with
    | none => s
    | some task => runTask { s with tasks := s.tasks.eraseIdx i } e.2 task
  | .restart fetch => s.restart fetch e.2

def resumed (s : Backend) (e : Event) : Option Task :=
  match e.1 with
  | .resume i => s.tasks[i]?
  | _ => none

end Backend

/-! ## When a service is due -/

/-- What has happened to a service that has a time to live: when it was last registered or heard
of, and when it was revoked or recovered since. -/
structure Watch where
  ttl : ℤ
  grace : ℤ
  seen : ℚ
  softened : Option ℚ := none

/-- The service is due a time to live and a grace period after it was seen, or a grace period after
a revocation or a restart. -/
def Watch.due (w : Watch) : ℚ :=
  match w.softened with
  | none => w.seen + w.ttl + w.grace
  | some time => time + w.grace

/-- The watches; a service that is permanent has none. -/
abbrev Watches := LeaseKey → Option Watch

namespace Watches

/-- What an event says about one service. -/
def adjust (ws : Watches) (key : LeaseKey) (f : Watch → Watch) : Watches := Function.update ws key ((ws key).map f)

def step (ws : Watches) (s : Backend) (e : Event) : Watches :=
  match e.1 with
  | .heartbeat dataset serviceId =>
    if s.leases.contains (dataset, serviceId) then
      ws.adjust (dataset, serviceId) fun w => { w with seen := e.2, softened := none }
    else ws
  | .revoke dataset serviceId false _ =>
    if s.leases.contains (dataset, serviceId) then
      ws.adjust (dataset, serviceId) fun w => { w with softened := some e.2 }
    else ws
  | .resume i =>
    match s.tasks[i]? with
    | some (.register dataset call ttl) =>
      match Backend.committed ((s.registry dataset).exec call).1 with
      | none => ws
      | some serviceId => Function.update ws (dataset, serviceId)
          (ttl.map fun ttl => { ttl, grace := (s.leaseConfig dataset).gracePeriod, seen := e.2 })
    | some (.install key _) => ws.adjust key fun w => { w with grace := (s.leaseConfig key.1).gracePeriod }
    | _ => ws
  | .restart fetch => fun key =>
    (((s.restart fetch e.2).entryAt key).bind (·.leaseTtl)).map fun ttl =>
      { ttl, grace := (s.leaseConfig key.1).gracePeriod, seen := e.2, softened := some e.2 }
  | _ => ws

end Watches

def watchedStep (p : Backend × Watches) (e : Event) : Backend × Watches := (p.1.step e, p.2.step p.1 e)

/-- If the event is a deletion by the sweeper, then the entry that it deletes has a time to live,
and the service is due. -/
def Lawful (p : Backend × Watches) (e : Event) : Prop :=
  ∀ key entry, p.1.resumed e = some (.hardDelete key) → p.1.entryAt key = some entry → (p.1.step e).entryAt key = none →
    ∃ w, p.2 key = some w ∧ entry.leaseTtl = some w.ttl ∧ w.due ≤ e.2

def Backend.installs (s : Backend) : List (LeaseKey × ℤ) :=
  s.tasks.filterMap fun task => match task with
    | .install key ttl => some (key, ttl)
    | _ => none

/-- The keys that the sweeper has yet to delete. -/
def Backend.hardDeletes (s : Backend) : List LeaseKey :=
  s.tasks.filterMap fun task => match task with
    | .hardDelete key => some key
    | _ => none

/-- What must not happen in between: a registration is not committed while the sweeper has yet to
delete its id, or while another time to live is yet to be installed for it, or without a time to
live while its id has a lease; a sweep does not find an id overdue whose lease is yet to be
installed; and an update does not write back another time to live. -/
def Tame (s : Backend) (e : Event) : Prop :=
  match e.1 with
  | .sweepTick => ∀ p ∈ s.installs, p.1 ∉ s.leases.toDelete e.2
  | .resume i =>
    match s.tasks[i]? with
    | some (.register dataset call ttl) =>
      match Backend.committed ((s.registry dataset).exec call).1 with
      | none => True
      | some serviceId => (dataset, serviceId) ∉ s.hardDeletes ∧
          (∀ p ∈ s.installs, p.1 = (dataset, serviceId) → ttl = some p.2) ∧
          (ttl = none → s.leases.contains (dataset, serviceId) = false)
    | some (.commit dataset new _) => (s.entryAt (dataset, new.serviceId)).all (·.leaseTtl = new.leaseTtl) = true
    | _ => True
  | _ => True

instance (s : Backend) (e : Event) : Decidable (Tame s e) := by
  unfold Tame
  split
  · infer_instance
  · split
    · split <;> infer_instance
    · infer_instance
    · infer_instance
  · infer_instance

theorem Backend.mem_installs {s : Backend} {key : LeaseKey} {ttl : ℤ} : (key, ttl) ∈ s.installs ↔ .install key ttl ∈ s.tasks := by
  simp only [installs, List.mem_filterMap]
  constructor
  · rintro ⟨task, htask, hsome⟩
    cases task with
    | install key' ttl' =>
      obtain ⟨rfl, rfl⟩ := Prod.mk.inj (Option.some.inj hsome)
      exact htask
    | _ => cases hsome
  · exact fun htask => ⟨_, htask, rfl⟩

theorem Backend.mem_hardDeletes {s : Backend} {key : LeaseKey} : key ∈ s.hardDeletes ↔ .hardDelete key ∈ s.tasks := by
  simp only [hardDeletes, List.mem_filterMap]
  constructor
  · rintro ⟨task, htask, hsome⟩
    cases task with
    | hardDelete key' =>
      obtain rfl := Option.some.inj hsome
      exact htask
    | _ => cases hsome
  · exact fun htask => ⟨_, htask, rfl⟩

/-! ## Entries -/

namespace Backend

variable {s s' : Backend} {key : LeaseKey} {dataset : String}

theorem registry_setRegistry (s : Backend) (dataset dataset' : String) (r : Registry) :
    (s.setRegistry dataset r).registry dataset' = if dataset = dataset' then r else s.registry dataset' := by
  unfold registry setRegistry
  rw [Dict.lookup_set]
  split <;> rfl

theorem entryAt_setRegistry (s : Backend) (dataset : String) (r : Registry) (key : LeaseKey) :
    (s.setRegistry dataset r).entryAt key = if dataset = key.1 then r.entries.get? key.2 else s.entryAt key := by
  unfold entryAt
  rw [registry_setRegistry]
  split <;> rfl

/-- Every entry was there before, with the same time to live. -/
def Sub (s s' : Backend) : Prop :=
  ∀ key entry', s'.entryAt key = some entry' → ∃ entry, s.entryAt key = some entry ∧ entry.leaseTtl = entry'.leaseTtl

theorem Sub.refl (s : Backend) : Sub s s := fun _ entry h => ⟨entry, h, rfl⟩

theorem sub_setRegistry {r : Registry} (h : ∀ sid entry', r.entries.get? sid = some entry' →
      ∃ entry, (s.registry dataset).entries.get? sid = some entry ∧ entry.leaseTtl = entry'.leaseTtl) :
    Sub s (s.setRegistry dataset r) := by
  intro key entry' hentry'
  rw [entryAt_setRegistry] at hentry'
  split at hentry'
  · rename_i heq
    subst heq
    exact h _ _ hentry'
  · exact ⟨entry', hentry', rfl⟩

theorem sub_runDeregister (s : Backend) (dataset serviceId : String) (caller : Option AuthContext) :
    Sub s (s.runDeregister dataset serviceId caller) := by
  apply sub_setRegistry
  intro sid entry' hentry'
  rcases Registry.deregister_cases (s.registry dataset) serviceId caller with ⟨e, he⟩ | ⟨entry, -, -, -, -, hexec⟩
  · rw [he] at hentry'
    exact ⟨entry', hentry', rfl⟩
  · rw [hexec] at hentry'
    simp only [Registry.markTaxonomyStale_entries, Registry.regenerateOutput_entries, Registry.removeIfApi_entries,
      Registry.delete_entries, Table.get?_erase] at hentry'
    split at hentry'
    · cases hentry'
    exact ⟨entry', hentry', rfl⟩

theorem sub_commitUpdate {new : Entry} (changed : List String)
    (h : ∀ entry, s.entryAt (dataset, new.serviceId) = some entry → entry.leaseTtl = new.leaseTtl) :
    Sub s (s.setRegistry dataset ((s.registry dataset).commitUpdate new changed).2) := by
  apply sub_setRegistry
  intro sid entry' hentry'
  unfold Registry.commitUpdate at hentry'
  cases hold : (s.registry dataset).entries.get? new.serviceId with
  | none =>
    simp only [hold] at hentry'
    exact ⟨entry', hentry', rfl⟩
  | some entry =>
    have hentries : ((s.registry dataset).commitUpdate new changed).2.entries = (s.registry dataset).entries.insert new := by
      simp only [Registry.commitUpdate, hold]
      split <;> simp
    simp only [hold] at hentry'
    have hentry' : ((s.registry dataset).entries.insert new).get? sid = some entry' := by
      rw [← hentries]
      simpa only [Registry.commitUpdate, hold] using hentry'
    rw [Table.get?_insert] at hentry'
    split at hentry'
    · rename_i hsid
      obtain rfl := Option.some.inj hentry'
      exact ⟨entry, hsid ▸ hold, h entry hold⟩
    · exact ⟨entry', hentry', rfl⟩

variable (s : Backend) (dataset serviceId : String) (updates : Updates) (caller : Option AuthContext)

theorem sub_startUpdate : Sub s (s.startUpdate dataset serviceId updates caller) := by
  unfold startUpdate
  split
  · exact .refl s
  · have hsame : ∀ store, Sub s (s.setRegistry dataset ((s.registry dataset).withStore store)) :=
      fun store => sub_setRegistry fun sid entry' hentry' => ⟨entry', hentry', rfl⟩
    dsimp only
    split
    · exact hsame _
    · exact hsame _

theorem startUpdate_rest : (s.startUpdate dataset serviceId updates caller).leases = s.leases ∧
      ((s.startUpdate dataset serviceId updates caller).tasks = s.tasks ∨
        ∃ new changed, (s.startUpdate dataset serviceId updates caller).tasks = s.tasks ++ [.commit dataset new changed]) := by
  unfold startUpdate
  split
  · exact ⟨rfl, .inl rfl⟩
  · dsimp only
    split
    · exact ⟨rfl, .inl rfl⟩
    · exact ⟨rfl, .inr ⟨_, _, rfl⟩⟩

/-- The call of a registration that asks for the time to live. -/
def Registers (call : Register.Call) (ttl : Option ℤ) : Prop :=
  (∃ req caller, call = ⟨.registerGeneric req, caller⟩ ∧ req.leaseTtl = ttl) ∨
    ∃ req caller, call = ⟨.registerA2a req, caller⟩ ∧ req.leaseTtl = ttl

theorem exec_registers (r : Registry) {call : Register.Call} {ttl : Option ℤ} (h : Registers call ttl) :
    (committed (r.exec call).1 = none ∧ (r.exec call).2.entries = r.entries) ∨
      ∃ entry, committed (r.exec call).1 = some entry.serviceId ∧ entry.leaseTtl = ttl ∧
        (r.exec call).2.entries = r.entries.insert entry := by
  rcases h with ⟨req, caller, rfl, rfl⟩ | ⟨req, caller, rfl, rfl⟩
  · rw [Registry.exec_registerGeneric]
    rcases Registry.registerGeneric_cases r req caller with ⟨e, he⟩ | ⟨-, -, hexec⟩
    · exact .inl (by simp [he, committed])
    · exact .inr ⟨req.entry caller, by simp [hexec, Registry.doRegister, committed], rfl, by simp [hexec, Registry.doRegister]⟩
  · rw [Registry.exec_registerA2a]
    rcases Registry.registerA2a_cases r req caller with ⟨e, he⟩ | ⟨card, url, -, -, -, hexec⟩
    · exact .inl (by simp [he, committed])
    · exact .inr ⟨req.entry card url caller, by simp [hexec, Registry.doRegister, committed], rfl,
        by simp [hexec, Registry.doRegister]⟩

end Backend

/-! ## What holds between sections -/

open Backend

/-- Nothing is watched from the future. -/
def Watch.Past (w : Watch) (now : ℚ) : Prop := w.seen ≤ now ∧ ∀ time, w.softened = some time → time ≤ now

/-- The lease does not end before the service is due. -/
def Covers (lease : Lease) (w : Watch) : Prop :=
  ∃ d : Common.Due, lease.Meets d ∧ d.ttl = w.ttl ∧ d.grace = w.grace ∧ w.due ≤ d.deadline

structure Inv (s : Backend) (ws : Watches) (now : ℚ) : Prop where
  past : ∀ key w, ws key = some w → w.Past now
  registering : ∀ dataset call ttl, .register dataset call ttl ∈ s.tasks → Registers call ttl ∧ ∀ t, ttl = some t → 1 ≤ t
  installing : ∀ key ttl, .install key ttl ∈ s.tasks →
    1 ≤ ttl ∧ ∀ entry, s.entryAt key = some entry → ∃ w, ws key = some w ∧ w.ttl = ttl ∧ entry.leaseTtl = some ttl
  deleting : ∀ key, .hardDelete key ∈ s.tasks → s.leases.lookup key = none ∧ (∀ ttl, .install key ttl ∉ s.tasks) ∧
    ∀ entry, s.entryAt key = some entry → ∃ w, ws key = some w ∧ entry.leaseTtl = some w.ttl ∧ w.due ≤ now
  leased : ∀ key lease entry, s.leases.lookup key = some lease → s.entryAt key = some entry →
    (∀ ttl, .install key ttl ∉ s.tasks) → ∃ w, ws key = some w ∧ entry.leaseTtl = some w.ttl ∧ Covers lease w

section Inv

variable {s s' : Backend} {ws : Watches} {now now' : ℚ} {key : LeaseKey}

variable {w : Watch}

theorem Watch.Past.mono (h : w.Past now) (hle : now ≤ now') : w.Past now' :=
  ⟨h.1.trans hle, fun time htime => (h.2 time htime).trans hle⟩

/-- A task that nothing is known about until it goes on. -/
def Harmless : Task → Prop
  | .register _ call ttl => Registers call ttl ∧ ∀ t, ttl = some t → 1 ≤ t
  | .commit .. => True
  | .evict .. => True
  | _ => False

theorem Inv.carry (h : Inv s ws now) (hle : now ≤ now') (hsub : Sub s s')
    (hleases : ∀ key lease, s'.leases.lookup key = some lease → s.leases.lookup key = some lease)
    (htasks : ∀ task ∈ s'.tasks, task ∈ s.tasks ∨ Harmless task)
    (hinstall : ∀ key ttl, Task.install key ttl ∈ s.tasks → .install key ttl ∈ s'.tasks) : Inv s' ws now' where
  past key w hw := (h.past key w hw).mono hle
  registering dataset call ttl htask := (htasks _ htask).elim (h.registering dataset call ttl) id
  installing key ttl htask := by
    obtain ⟨hpos, hentries⟩ := h.installing key ttl ((htasks _ htask).resolve_right id)
    refine ⟨hpos, fun entry' hentry' => ?_⟩
    obtain ⟨entry, hentry, hsame⟩ := hsub key entry' hentry'
    obtain ⟨w, hw, httl, hlease⟩ := hentries entry hentry
    exact ⟨w, hw, httl, hsame ▸ hlease⟩
  deleting key htask := by
    obtain ⟨hnone, hinst, hentries⟩ := h.deleting key ((htasks _ htask).resolve_right id)
    refine ⟨?_, fun ttl hmem => hinst ttl ((htasks _ hmem).resolve_right id), fun entry' hentry' => ?_⟩
    · cases hlease : s'.leases.lookup key with
      | none => rfl
      | some lease => exact absurd (hleases key lease hlease) (by simp [hnone])
    · obtain ⟨entry, hentry, hsame⟩ := hsub key entry' hentry'
      obtain ⟨w, hw, httl, hdue⟩ := hentries entry hentry
      exact ⟨w, hw, hsame ▸ httl, hdue.trans hle⟩
  leased key lease entry' hlease hentry' hinst := by
    obtain ⟨entry, hentry, hsame⟩ := hsub key entry' hentry'
    obtain ⟨w, hw, httl, hcovers⟩ :=
      h.leased key lease entry (hleases key lease hlease) hentry fun ttl hmem => hinst ttl (hinstall key ttl hmem)
    exact ⟨w, hw, hsame ▸ httl, hcovers⟩

theorem adjust_self (ws : Watches) (key : LeaseKey) (f : Watch → Watch) : ws.adjust key f key = (ws key).map f := by
  simp [Watches.adjust]

theorem adjust_of_ne (ws : Watches) {key key' : LeaseKey} (f : Watch → Watch) (h : key' ≠ key) :
    ws.adjust key f key' = ws key' := by
  simp [Watches.adjust, h]

theorem Inv.touch (h : Inv s ws now) (hle : now ≤ now') {f : Watch → Watch} {lease lease' : Lease}
    (hlease : s.leases.lookup key = some lease) (httl : ∀ w, (f w).ttl = w.ttl)
    (hpast : ∀ w, w.Past now' → (f w).Past now') (hcovers : ∀ w, Covers lease w → Covers lease' (f w)) :
    Inv { s with leases := s.leases.set key lease' } (ws.adjust key f) now' where
  past key' w hw := by
    by_cases hkey : key' = key
    · rw [hkey, adjust_self] at hw
      obtain ⟨w₀, hw₀, rfl⟩ := Option.map_eq_some_iff.mp hw
      exact hpast w₀ ((h.past key w₀ hw₀).mono hle)
    · rw [adjust_of_ne ws f hkey] at hw
      exact (h.past key' w hw).mono hle
  registering := h.registering
  installing key' ttl htask := by
    obtain ⟨hpos, hentries⟩ := h.installing key' ttl htask
    refine ⟨hpos, fun entry hentry => ?_⟩
    obtain ⟨w, hw, hwttl, hlease⟩ := hentries entry hentry
    by_cases hkey : key' = key
    · rw [hkey, adjust_self, ← hkey, hw]
      exact ⟨f w, rfl, (httl w).trans hwttl, hlease⟩
    · rw [adjust_of_ne ws f hkey]
      exact ⟨w, hw, hwttl, hlease⟩
  deleting key' htask := by
    obtain ⟨hnone, hinst, hentries⟩ := h.deleting key' htask
    have hkey : key' ≠ key := by
      rintro rfl
      exact nomatch hlease.symm.trans hnone
    refine ⟨(Dict.lookup_set_of_ne hkey.symm).trans hnone, hinst, fun entry hentry => ?_⟩
    obtain ⟨w, hw, hwttl, hdue⟩ := hentries entry hentry
    rw [adjust_of_ne ws f hkey]
    exact ⟨w, hw, hwttl, hdue.trans hle⟩
  leased key' lease₁ entry hlease₁ hentry hinst := by
    by_cases hkey : key' = key
    · subst hkey
      obtain rfl := Option.some.inj ((Dict.lookup_set_self _ _ _).symm.trans hlease₁)
      obtain ⟨w, hw, hwttl, hcov⟩ := h.leased key' lease entry hlease hentry hinst
      rw [adjust_self, hw]
      exact ⟨f w, rfl, hwttl.trans (congrArg some (httl w).symm), hcovers w hcov⟩
    · rw [adjust_of_ne ws f hkey]
      have hold : s.leases.lookup key' = some lease₁ := (Dict.lookup_set_of_ne (Ne.symm hkey)).symm.trans hlease₁
      exact h.leased key' lease₁ entry hold hentry hinst

variable {lease : Lease}

theorem Covers.renew (h : Covers lease w) (now : ℚ) : Covers (lease.renew now) { w with seen := now, softened := none } := by
  obtain ⟨d, hmeets, httl, hgrace, -⟩ := h
  refine ⟨_, hmeets.renew now, httl, hgrace, ?_⟩
  simp [Watch.due, httl, hgrace]

theorem Covers.revoke (h : Covers lease w) (now : ℚ) : Covers (lease.revoke now) { w with softened := some now } := by
  obtain ⟨d, hmeets, httl, hgrace, -⟩ := h
  refine ⟨_, hmeets.revoke now, httl, hgrace, ?_⟩
  simp [Watch.due, hgrace]

variable {grace : ℤ}

theorem covers_new (hpast : w.Past now) (hpos : 1 ≤ w.ttl) (hgrace : 0 ≤ grace) :
    Covers (Lease.new w.ttl grace false now) { w with grace } := by
  refine ⟨_, Lease.meets_new w.ttl hgrace false now, rfl, rfl, ?_⟩
  have httl : (0 : ℚ) ≤ w.ttl := by exact_mod_cast (by omega : 0 ≤ w.ttl)
  unfold Watch.due
  dsimp only
  cases hsoft : w.softened with
  | none => simpa using hpast.1
  | some time =>
    have htime := hpast.2 time hsoft
    simp only [Bool.false_eq_true, if_false]
    linarith

theorem covers_recovered (ttl : ℤ) (hgrace : 0 ≤ grace) (now : ℚ) :
    Covers (Lease.new ttl grace true now) { ttl, grace, seen := now, softened := some now } :=
  ⟨_, Lease.meets_new ttl hgrace true now, rfl, rfl, by simp [Watch.due]⟩

/-! ## Steps -/

theorem Inv.startRegister (h : Inv s ws now) (hle : now ≤ now') (dataset : String) (clientTtl : Option ℤ) {call : Option ℤ → Register.Call}
    (hcall : ∀ ttl, Registers (call ttl) ttl) : Inv (s.startRegister dataset clientTtl call) ws now' := by
  unfold Backend.startRegister
  cases hvalid : validate (s.leaseConfig dataset) dataset clientTtl with
  | error e => exact h.carry hle (.refl s) (fun _ _ hl => hl) (fun _ ht => .inl ht) fun _ _ ht => ht
  | ok ttl =>
    refine h.carry hle (fun _ entry he => ⟨entry, he, rfl⟩) (fun _ _ hl => hl) (fun task ht => ?_)
      fun _ _ ht => List.mem_append_left _ ht
    rcases List.mem_append.mp ht with ht | ht
    · exact .inl ht
    · rw [List.mem_singleton.mp ht]
      refine .inr ⟨hcall ttl, ?_⟩
      rintro t rfl
      exact validate_pos hvalid

variable (h : Inv s ws now) (hle : now ≤ now') (dataset serviceId : String)
include h hle

theorem Inv.startUpdate (updates : Updates)
    (caller : Option AuthContext) : Inv (s.startUpdate dataset serviceId updates caller) ws now' := by
  obtain ⟨hleases, htasks⟩ := startUpdate_rest s dataset serviceId updates caller
  refine h.carry hle (sub_startUpdate s dataset serviceId updates caller) (fun _ _ hl => hleases ▸ hl) (fun task ht => ?_)
    fun key ttl ht => ?_
  · rcases htasks with hsame | ⟨new, changed, hadded⟩
    · exact .inl (hsame ▸ ht)
    · rw [hadded] at ht
      rcases List.mem_append.mp ht with ht | ht
      · exact .inl ht
      · rw [List.mem_singleton.mp ht]
        exact .inr trivial
  · rcases htasks with hsame | ⟨new, changed, hadded⟩
    · exact hsame ▸ ht
    · rw [hadded]
      exact List.mem_append_left _ ht

theorem Inv.runDeregister (caller : Option AuthContext) : Inv (s.runDeregister dataset serviceId caller) ws now' :=
  h.carry hle (sub_runDeregister s dataset serviceId caller) (fun _ _ hl => hl) (fun _ ht => .inl ht) fun _ _ ht => ht

theorem Inv.heartbeat :
    Inv (s.step (.heartbeat dataset serviceId, now')) (ws.step s (.heartbeat dataset serviceId, now')) now' := by
  dsimp only [Backend.step, Watches.step]
  cases hlease : s.leases.lookup (dataset, serviceId) with
  | none =>
    rw [if_neg (by simp [Dict.contains, hlease])]
    have hfails : s.leases.renew (dataset, serviceId) now' = none := by simp [LeaseTable.renew, hlease]
    rw [hfails]
    exact h.carry hle (.refl s) (fun _ _ hl => hl) (fun _ ht => .inl ht) fun _ _ ht => ht
  | some lease =>
    rw [if_pos (by simp [Dict.contains, hlease])]
    have hrenewed : s.leases.renew (dataset, serviceId) now' = some (s.leases.set (dataset, serviceId) (lease.renew now')) := by
      simp [LeaseTable.renew, hlease]
    rw [hrenewed]
    exact h.touch hle hlease (fun _ => rfl) (fun w _ => ⟨le_refl _, fun _ ht => by cases ht⟩) fun w hw => hw.renew now'

theorem Inv.revoke (permanent : Bool) (caller : Option AuthContext) :
    Inv (s.step (.revoke dataset serviceId permanent caller, now')) (ws.step s (.revoke dataset serviceId permanent caller, now'))
      now' := by
  cases permanent with
  | true =>
    refine h.carry hle (fun _ entry he => ⟨entry, he, rfl⟩) (fun key lease hl => ?_) (fun task ht => ?_)
      fun _ _ ht => List.mem_append_left _ ht
    · have herased : Dict.lookup (s.leases.erase (dataset, serviceId)) key = some lease := hl
      rw [Dict.lookup_erase] at herased
      split at herased
      · cases herased
      exact herased
    · rcases List.mem_append.mp ht with ht | ht
      · exact .inl ht
      · rw [List.mem_singleton.mp ht]
        exact .inr trivial
  | false =>
    dsimp only [Backend.step, Watches.step]
    cases hlease : s.leases.lookup (dataset, serviceId) with
    | none =>
      have hnothing : (s.leases.revoke (dataset, serviceId) false now').2 = s.leases := by simp [LeaseTable.revoke, hlease]
      rw [if_neg (by simp), if_neg (by simp [Dict.contains, hlease]), hnothing]
      exact h.carry hle (.refl s) (fun _ _ hl => hl) (fun _ ht => .inl ht) fun _ _ ht => ht
    | some lease =>
      have hrevoked : (s.leases.revoke (dataset, serviceId) false now').2 =
          s.leases.set (dataset, serviceId) (lease.revoke now') := by
        simp [LeaseTable.revoke, hlease]
      rw [if_neg (by simp), if_pos (by simp [Dict.contains, hlease]), hrevoked]
      refine h.touch hle hlease (fun _ => rfl) (fun w hw => ⟨hw.1, ?_⟩) fun w hw => hw.revoke now'
      rintro time ⟨rfl⟩
      exact le_refl _

omit h hle

theorem Inv.sweepTick (h : Inv s ws now) (hle : now ≤ now')
    (htame : ∀ key ttl, Task.install key ttl ∈ s.tasks → key ∉ s.leases.toDelete now') :
    Inv (s.step (.sweepTick, now')) ws now' := by
  have htasks : ∀ task ∈ (s.step (.sweepTick, now')).tasks,
      task ∈ s.tasks ∨ ∃ key ∈ s.leases.toDelete now', task = .hardDelete key := by
    intro task ht
    rcases List.mem_append.mp ht with ht | ht
    · exact .inl ht
    · obtain ⟨key, hkey, rfl⟩ := List.mem_map.mp ht
      exact .inr ⟨key, hkey, rfl⟩
  have hinstall : ∀ key ttl, Task.install key ttl ∈ (s.step (.sweepTick, now')).tasks → .install key ttl ∈ s.tasks := by
    intro key ttl ht
    rcases htasks _ ht with ht | ⟨_, -, heq⟩
    · exact ht
    · cases heq
  refine ⟨fun key w hw => (h.past key w hw).mono hle, ?_, ?_, ?_, ?_⟩
  · intro dataset call ttl ht
    rcases htasks _ ht with ht | ⟨_, -, heq⟩
    · exact h.registering dataset call ttl ht
    · cases heq
  · exact fun key ttl ht => h.installing key ttl (hinstall key ttl ht)
  · intro key ht
    rcases htasks _ ht with ht | ⟨key', hkey', heq⟩
    · obtain ⟨hnone, hinst, hentries⟩ := h.deleting key ht
      refine ⟨?_, fun ttl hmem => hinst ttl (hinstall key ttl hmem), fun entry hentry => ?_⟩
      · exact (LeaseTable.lookup_swept _ _ _).trans (by rw [hnone]; rfl)
      · obtain ⟨w, hw, httl, hdue⟩ := hentries entry hentry
        exact ⟨w, hw, httl, hdue.trans hle⟩
    · -- the sweep found the key overdue, so it is due
      obtain rfl := Task.hardDelete.inj heq
      have hinst : ∀ ttl, Task.install key ttl ∉ s.tasks := fun ttl hmem => htame key ttl hmem hkey'
      obtain ⟨lease, hlease, hoverdue⟩ := LeaseTable.mem_toDelete.mp hkey'
      refine ⟨LeaseTable.lookup_step_toDelete hkey', fun ttl hmem => hinst ttl (hinstall key ttl hmem), fun entry hentry => ?_⟩
      obtain ⟨w, hw, httl, d, hmeets, -, -, hdue⟩ := h.leased key lease entry hlease hentry hinst
      exact ⟨w, hw, httl, hdue.trans ((hmeets.overdue_mark now').mp hoverdue)⟩
  · intro key lease entry hlease hentry hinst
    have hswept := (LeaseTable.lookup_swept s.leases key now').symm.trans hlease
    obtain ⟨hmark, -⟩ := Option.filter_eq_some_iff.mp hswept
    obtain ⟨old, hold, rfl⟩ := Option.map_eq_some_iff.mp hmark
    obtain ⟨w, hw, httl, d, hmeets, hcovers⟩ :=
      h.leased key old entry hold hentry fun ttl hmem => hinst ttl (List.mem_append_left _ hmem)
    exact ⟨w, hw, httl, d, hmeets.mark now', hcovers⟩

theorem lookup_recovered {datasets : Dict String Registry} {config : String → LeaseConfig}
    (h : (recoverFromPersisted config now (persistedLeases datasets)).lookup key = some lease) :
    ∃ r entry ttl, datasets.lookup key.1 = some r ∧ r.entries.get? key.2 = some entry ∧ entry.leaseTtl = some ttl ∧
      lease = Lease.new ttl (config key.1).gracePeriod true now := by
  rcases Table.mem_of_mem_insertAll (Dict.lookup_eq_some.mp h) with hmem | hmem
  · cases hmem
  obtain ⟨⟨key', ttl⟩, hpair, heq⟩ := List.mem_map.mp hmem
  obtain ⟨rfl, rfl⟩ := Prod.mk.inj heq
  obtain ⟨p, hp, hentries⟩ := List.mem_flatMap.mp hpair
  obtain ⟨entry, hentry, httl⟩ := List.mem_filterMap.mp hentries
  obtain ⟨ttl', hsome, heq⟩ := Option.map_eq_some_iff.mp httl
  obtain ⟨rfl, rfl⟩ := Prod.mk.inj heq
  exact ⟨p.2, entry, ttl', Dict.lookup_eq_some.mpr hp, Table.mem_iff_get?.mp hentry, hsome, rfl⟩

theorem inv_restart (s : Backend) (ws : Watches) (fetch : String → Option AgentCard) (now : ℚ) :
    Inv (s.step (.restart fetch, now)) (ws.step s (.restart fetch, now)) now where
  past key w hw := by
    obtain ⟨ttl, -, rfl⟩ := Option.map_eq_some_iff.mp hw
    refine ⟨le_refl _, ?_⟩
    rintro time ⟨rfl⟩
    exact le_refl _
  registering dataset call ttl ht := nomatch ht
  installing key ttl ht := nomatch ht
  deleting key ht := nomatch ht
  leased key lease entry hlease hentry _ := by
    obtain ⟨r, entry', ttl, hr, hentry', httl, rfl⟩ := lookup_recovered hlease
    have hthere : (s.restart fetch now).entryAt key = some entry' := by
      unfold Backend.entryAt Backend.registry
      rw [show (s.restart fetch now).datasets.lookup key.1 = some r from hr]
      exact hentry'
    obtain rfl := Option.some.inj (hentry.symm.trans hthere)
    refine ⟨{ ttl, grace := (s.leaseConfig key.1).gracePeriod, seen := now, softened := some now }, ?_, httl,
      covers_recovered ttl (s.leaseConfig key.1).grace_nonneg now⟩
    dsimp only [Watches.step]
    rw [hthere, Option.bind_some, httl]
    rfl

section Resume

variable {i : ℕ} {task : Task}

theorem mem_eraseIdx_of_ne {α : Type} {l : List α} {i : ℕ} {a b : α} (hb : l[i]? = some b) (ha : a ∈ l) (hne : a ≠ b) :
    a ∈ l.eraseIdx i := by
  obtain ⟨j, hj⟩ := List.mem_iff_getElem?.mp ha
  refine List.mem_eraseIdx_iff_getElem?.mpr ⟨j, ?_, hj⟩
  rintro rfl
  exact hne (Option.some.inj (hj.symm.trans hb))

theorem Inv.popped (h : Inv s ws now) (hle : now ≤ now') (htask : s.tasks[i]? = some task)
    (hne : ∀ key ttl, Task.install key ttl ≠ task) : Inv { s with tasks := s.tasks.eraseIdx i } ws now' :=
  h.carry hle (fun _ entry he => ⟨entry, he, rfl⟩) (fun _ _ hl => hl) (fun _ ht => .inl (List.mem_of_mem_eraseIdx ht))
    fun key ttl ht => mem_eraseIdx_of_ne htask ht (hne key ttl)

variable {call : Register.Call} {ttl : Option ℤ}

theorem step_registered {dataset : String} {serviceId : String} (htask : s.tasks[i]? = some (.register dataset call ttl))
    (hcommitted : Backend.committed ((s.registry dataset).exec call).1 = some serviceId) :
    (s.step (.resume i, now)).leases = s.leases ∧
      (s.step (.resume i, now)).tasks = s.tasks.eraseIdx i ++ (ttl.map (.install (dataset, serviceId))).toList ∧
      ∀ key, (s.step (.resume i, now)).entryAt key =
        if dataset = key.1 then ((s.registry dataset).exec call).2.entries.get? key.2 else s.entryAt key := by
  have hs : s.step (.resume i, now) =
      match ttl with
      | some ttl => ({ s with tasks := s.tasks.eraseIdx i }.setRegistry dataset ((s.registry dataset).exec call).2).addTask
          (.install (dataset, serviceId) ttl)
      | none => { s with tasks := s.tasks.eraseIdx i }.setRegistry dataset ((s.registry dataset).exec call).2 := by
    simp only [Backend.step, htask, Backend.runTask]
    rw [show (Backend.registry { s with tasks := s.tasks.eraseIdx i } dataset) = s.registry dataset from rfl, hcommitted]
    cases ttl <;> rfl
  rw [hs]
  cases ttl with
  | none => exact ⟨rfl, (List.append_nil _).symm, fun key => entryAt_setRegistry _ _ _ key⟩
  | some ttl => exact ⟨rfl, rfl, fun key => entryAt_setRegistry _ _ _ key⟩

theorem Inv.committed (h : Inv s ws now) (hle : now ≤ now') {dataset : String}
    (htask : s.tasks[i]? = some (.register dataset call ttl)) (htame : Tame s (.resume i, now')) {entry : Entry}
    (hcommitted : Backend.committed ((s.registry dataset).exec call).1 = some entry.serviceId) (hentryTtl : entry.leaseTtl = ttl)
    {s' : Backend}
    (hentryAt : ∀ key, s'.entryAt key = if key = (dataset, entry.serviceId) then some entry else s.entryAt key)
    (hleases : s'.leases = s.leases)
    (htasks : s'.tasks = s.tasks.eraseIdx i ++ (ttl.map (.install (dataset, entry.serviceId))).toList) :
    Inv s' (ws.step s (.resume i, now')) now' := by
  obtain ⟨hdelete, hsame, hfree⟩ : .hardDelete (dataset, entry.serviceId) ∉ s.tasks ∧
      (∀ ttl', .install (dataset, entry.serviceId) ttl' ∈ s.tasks → ttl = some ttl') ∧
      (ttl = none → s.leases.contains (dataset, entry.serviceId) = false) := by
    simp only [Tame, htask, hcommitted] at htame
    obtain ⟨hdelete, hsame, hfree⟩ := htame
    exact ⟨fun hmem => hdelete (mem_hardDeletes.mpr hmem), fun t hmem => hsame _ (mem_installs.mpr hmem) rfl, hfree⟩
  have hpos : ∀ t, ttl = some t → 1 ≤ t := (h.registering dataset call ttl (List.mem_of_getElem? htask)).2
  set key := (dataset, entry.serviceId) with hkey
  have hws : ws.step s (.resume i, now') = Function.update ws key
      (ttl.map fun ttl => { ttl, grace := (s.leaseConfig dataset).gracePeriod, seen := now' }) := by
    simp only [Watches.step, htask, hcommitted]
    rfl
  have hself : ∀ t, ttl = some t → ∃ w, ws.step s (.resume i, now') key = some w ∧ w.ttl = t ∧ entry.leaseTtl = some t := by
    rintro t rfl
    rw [hws, Function.update_self]
    exact ⟨_, rfl, rfl, hentryTtl⟩
  have hother : ∀ k, k ≠ key → ws.step s (.resume i, now') k = ws k := fun k hk => by rw [hws, Function.update_of_ne hk]
  have hold : ∀ task ∈ s'.tasks, task ∈ s.tasks ∨ ∃ t, ttl = some t ∧ task = .install key t := by
    intro task ht
    rw [htasks] at ht
    rcases List.mem_append.mp ht with ht | ht
    · exact .inl (List.mem_of_mem_eraseIdx ht)
    · obtain ⟨t, hsome, rfl⟩ := Option.map_eq_some_iff.mp (Option.mem_toList.mp ht)
      exact .inr ⟨t, hsome, rfl⟩
  refine ⟨fun k w hw => ?_, fun d c t ht => ?_, fun k t ht => ?_, fun k ht => ?_, fun k lease e hlease he hinst => ?_⟩
  · by_cases hk : k = key
    · rw [hk, hws, Function.update_self] at hw
      obtain ⟨t, -, rfl⟩ := Option.map_eq_some_iff.mp hw
      exact ⟨le_refl _, fun _ ht => by cases ht⟩
    · rw [hother k hk] at hw
      exact (h.past k w hw).mono hle
  · rcases hold _ ht with ht | ⟨_, -, heq⟩
    · exact h.registering d c t ht
    · cases heq
  · -- another lease for this id is for the same time
    by_cases hk : k = key
    · have httl : ttl = some t := by
        rcases hold _ ht with ht | ⟨t', hsome, heq⟩
        · exact hsame t (hk ▸ ht)
        · exact hsome.trans (congrArg some (Task.install.inj heq).2.symm)
      refine ⟨hpos t httl, fun e he => ?_⟩
      rw [hentryAt, if_pos hk] at he
      obtain rfl := Option.some.inj he
      exact hk ▸ hself t httl
    · rcases hold _ ht with ht | ⟨_, -, heq⟩
      · obtain ⟨hp, hwatch⟩ := h.installing k t ht
        refine ⟨hp, fun e he => ?_⟩
        rw [hentryAt, if_neg hk] at he
        rw [hother k hk]
        exact hwatch e he
      · exact absurd (Task.install.inj heq).1 hk
  · rcases hold _ ht with ht | ⟨_, -, heq⟩
    · have hk : k ≠ key := by
        rintro rfl
        exact hdelete ht
      obtain ⟨hnone, hinst, hwatch⟩ := h.deleting k ht
      refine ⟨hleases ▸ hnone, fun t hmem => ?_, fun e he => ?_⟩
      · rcases hold _ hmem with hmem | ⟨_, -, heq⟩
        · exact hinst t hmem
        · exact hk (Task.install.inj heq).1
      · rw [hentryAt, if_neg hk] at he
        obtain ⟨w, hw, httl, hdue⟩ := hwatch e he
        rw [hother k hk]
        exact ⟨w, hw, httl, hdue.trans hle⟩
    · cases heq
  · by_cases hk : k = key
    · -- either a lease is to be installed, or there is none
      cases ttl with
      | some t => exact absurd (by simp [htasks, hk]) (hinst t)
      | none =>
        have hnone := hfree rfl
        rw [hleases, hk] at hlease
        simp [Dict.contains, hlease] at hnone
    · rw [hentryAt, if_neg hk] at he
      rw [hother k hk]
      refine h.leased k lease e (hleases ▸ hlease) he fun t hmem => hinst t ?_
      rw [htasks]
      exact List.mem_append_left _ (mem_eraseIdx_of_ne htask hmem (by rintro ⟨⟩))

theorem Inv.installed (h : Inv s ws now) (hle : now ≤ now') {ttl : ℤ} (htask : s.tasks[i]? = some (.install key ttl)) :
    Inv (s.step (.resume i, now')) (ws.step s (.resume i, now')) now' := by
  have hmem : Task.install key ttl ∈ s.tasks := List.mem_of_getElem? htask
  have hws : ws.step s (.resume i, now') = ws.adjust key fun w => { w with grace := (s.leaseConfig key.1).gracePeriod } := by
    simp only [Watches.step, htask]
  have hs : s.step (.resume i, now') = { s with
      tasks := s.tasks.eraseIdx i
      leases := s.leases.install key ttl (s.leaseConfig key.1).gracePeriod false now' } := by
    simp only [Backend.step, htask]
    rfl
  rw [hws, hs]
  refine ⟨fun k w hw => ?_, fun d c t ht => ?_, fun k t ht => ?_, fun k ht => ?_, fun k lease e hlease he hinst => ?_⟩
  · by_cases hk : k = key
    · rw [hk, adjust_self] at hw
      obtain ⟨w₀, hw₀, rfl⟩ := Option.map_eq_some_iff.mp hw
      exact (h.past key w₀ hw₀).mono hle
    · rw [adjust_of_ne ws _ hk] at hw
      exact (h.past k w hw).mono hle
  · exact h.registering d c t (List.mem_of_mem_eraseIdx ht)
  · obtain ⟨hp, hwatch⟩ := h.installing k t (List.mem_of_mem_eraseIdx ht)
    refine ⟨hp, fun e he => ?_⟩
    obtain ⟨w, hw, httl, hentry⟩ := hwatch e he
    by_cases hk : k = key
    · rw [hk, adjust_self, ← hk, hw]
      exact ⟨_, rfl, httl, hentry⟩
    · rw [adjust_of_ne ws _ hk]
      exact ⟨w, hw, httl, hentry⟩
  · obtain ⟨hnone, hinst, hwatch⟩ := h.deleting k (List.mem_of_mem_eraseIdx ht)
    have hk : k ≠ key := by
      rintro rfl
      exact hinst ttl hmem
    refine ⟨(Dict.lookup_set_of_ne hk.symm).trans hnone, fun t ht => hinst t (List.mem_of_mem_eraseIdx ht), fun e he => ?_⟩
    obtain ⟨w, hw, httl, hdue⟩ := hwatch e he
    rw [adjust_of_ne ws _ hk]
    exact ⟨w, hw, httl, hdue.trans hle⟩
  · by_cases hk : k = key
    · subst hk
      obtain rfl := Option.some.inj ((Dict.lookup_set_self _ _ _).symm.trans hlease)
      obtain ⟨hp, hwatch⟩ := h.installing k ttl hmem
      obtain ⟨w, hw, rfl, hentry⟩ := hwatch e he
      rw [adjust_self, hw]
      exact ⟨_, rfl, hentry, covers_new ((h.past k w hw).mono hle) hp (s.leaseConfig k.1).grace_nonneg⟩
    · rw [adjust_of_ne ws _ hk]
      have hlease' : s.leases.lookup k = some lease := (Dict.lookup_set_of_ne (Ne.symm hk)).symm.trans hlease
      refine h.leased k lease e hlease' he fun t ht => hinst t (mem_eraseIdx_of_ne htask ht ?_)
      rintro ⟨rfl, rfl⟩
      exact hk rfl

theorem Inv.resume (h : Inv s ws now) (hle : now ≤ now') (i : ℕ) (htame : Tame s (.resume i, now')) :
    Inv (s.step (.resume i, now')) (ws.step s (.resume i, now')) now' := by
  cases htask : s.tasks[i]? with
  | none =>
    simp only [Backend.step, Watches.step, htask]
    exact h.carry hle (.refl s) (fun _ _ hl => hl) (fun _ ht => .inl ht) fun _ _ ht => ht
  | some task =>
    cases task with
    | register dataset call ttl =>
      have hregisters := (h.registering dataset call ttl (List.mem_of_getElem? htask)).1
      rcases exec_registers (s.registry dataset) hregisters with ⟨hnone, hentries⟩ | ⟨entry, hsome, httl, hentries⟩
      · have hws : ws.step s (.resume i, now') = ws := by simp only [Watches.step, htask, hnone]
        have hs : s.step (.resume i, now') =
            { s with tasks := s.tasks.eraseIdx i }.setRegistry dataset ((s.registry dataset).exec call).2 := by
          simp only [Backend.step, htask, Backend.runTask]
          rw [show (Backend.registry { s with tasks := s.tasks.eraseIdx i } dataset) = s.registry dataset from rfl, hnone]
        rw [hws, hs]
        refine (h.popped hle htask (by rintro _ _ ⟨⟩)).carry (le_refl _) (sub_setRegistry fun sid e he => ?_) (fun _ _ hl => hl)
          (fun _ ht => .inl ht) fun _ _ ht => ht
        rw [hentries] at he
        exact ⟨e, he, rfl⟩
      · have hs : (s.step (.resume i, now')).leases = s.leases ∧ _ := step_registered htask hsome
        have hentryAt : ∀ key, (s.step (.resume i, now')).entryAt key =
            if key = (dataset, entry.serviceId) then some entry else s.entryAt key := by
          intro key
          rw [hs.2.2 key, hentries, Table.get?_insert]
          by_cases hkey : key = (dataset, entry.serviceId)
          · rw [if_pos hkey, hkey, if_pos rfl, if_pos rfl]
          · rw [if_neg hkey]
            split
            · rename_i hdataset
              rw [if_neg fun hsid => hkey (Prod.ext hdataset.symm hsid.symm)]
              unfold Backend.entryAt
              rw [hdataset]
            · rfl
        exact h.committed hle htask htame hsome httl hentryAt hs.1 hs.2.1
    | install key ttl => exact h.installed hle htask
    | commit dataset new changed =>
      have hws : ws.step s (.resume i, now') = ws := by simp only [Watches.step, htask]
      have hs : s.step (.resume i, now') =
          { s with tasks := s.tasks.eraseIdx i }.setRegistry dataset ((s.registry dataset).commitUpdate new changed).2 := by
        simp only [Backend.step, htask]
        rfl
      have hsame : ∀ entry, s.entryAt (dataset, new.serviceId) = some entry → entry.leaseTtl = new.leaseTtl := by
        intro entry hentry
        simp only [Tame, htask, hentry] at htame
        simpa using htame
      rw [hws, hs]
      exact (h.popped hle htask (by rintro _ _ ⟨⟩)).carry (le_refl _)
        (sub_commitUpdate (s := { s with tasks := s.tasks.eraseIdx i }) changed hsame) (fun _ _ hl => hl) (fun _ ht => .inl ht)
        fun _ _ ht => ht
    | evict key caller =>
      have hws : ws.step s (.resume i, now') = ws := by simp only [Watches.step, htask]
      have hs : s.step (.resume i, now') = { s with tasks := s.tasks.eraseIdx i }.runDeregister key.1 key.2 caller := by
        simp only [Backend.step, htask]
        rfl
      rw [hws, hs]
      exact (h.popped hle htask (by rintro _ _ ⟨⟩)).runDeregister (le_refl _) _ _ _
    | hardDelete key =>
      have hws : ws.step s (.resume i, now') = ws := by simp only [Watches.step, htask]
      have hs : s.step (.resume i, now') = { s with tasks := s.tasks.eraseIdx i }.runDeregister key.1 key.2 (some systemCtx) := by
        simp only [Backend.step, htask]
        rfl
      rw [hws, hs]
      exact (h.popped hle htask (by rintro _ _ ⟨⟩)).runDeregister (le_refl _) _ _ _

end Resume

variable {e : Event}

theorem Inv.step (h : Inv s ws now) (hle : now ≤ e.2) (htame : Tame s e) : Inv (s.step e) (ws.step s e) e.2 := by
  obtain ⟨action, time⟩ := e
  cases action with
  | registerGeneric dataset req caller =>
    exact h.startRegister hle dataset _ fun ttl => .inl ⟨{ req with leaseTtl := ttl }, caller, rfl, rfl⟩
  | registerA2a dataset req caller =>
    exact h.startRegister hle dataset _ fun ttl => .inr ⟨{ req with leaseTtl := ttl }, caller, rfl, rfl⟩
  | updateService dataset serviceId updates caller => exact h.startUpdate hle dataset serviceId updates caller
  | deregister dataset serviceId caller => exact h.runDeregister hle dataset serviceId caller
  | heartbeat dataset serviceId => exact h.heartbeat hle dataset serviceId
  | revoke dataset serviceId permanent caller => exact h.revoke hle dataset serviceId permanent caller
  | setLeaseConfig dataset enabled minTtl maxTtl gracePeriod =>
    have hsub : Sub s (s.step (.setLeaseConfig dataset enabled minTtl maxTtl gracePeriod, time)) := by
      dsimp only [Backend.step]
      split <;> exact fun _ entry he => ⟨entry, he, rfl⟩
    refine h.carry hle hsub (fun key lease hl => ?_) (fun task ht => .inl ?_) fun key ttl ht => ?_
    all_goals dsimp only [Backend.step] at *
    · split at hl <;> exact hl
    · split at ht <;> exact ht
    · split <;> exact ht
  | sweepTick => exact h.sweepTick hle fun key ttl hmem => htame _ (mem_installs.mpr hmem)
  | resume i => exact h.resume hle i htame
  | restart fetch => exact inv_restart s ws fetch time

theorem Inv.lawful (h : Inv s ws now) (hle : now ≤ e.2) : Lawful (s, ws) e := by
  intro key entry hresumed hentry _
  have htask : Task.hardDelete key ∈ s.tasks := by
    obtain ⟨action, time⟩ := e
    cases action with
    | resume i => exact List.mem_of_getElem? hresumed
    | _ => cases hresumed
  obtain ⟨w, hw, httl, hdue⟩ := (h.deleting key htask).2.2 entry hentry
  exact ⟨w, hw, httl, hdue.trans hle⟩

end Inv

/-- The registry at its start, with whatever is on disk. -/
def started (s : Backend) (fetch : String → Option AgentCard) (now : ℚ) : Backend × Watches :=
  watchedStep (s, fun _ => none) (.restart fetch, now)

/-- In every run whose events are tame, at times that do not go back, the sweeper deletes only what
has a time to live and is due. -/
theorem sweeps_lawful (s : Backend) (fetch : String → Option AgentCard) (start : ℚ) (es : List Event)
    (hclock : (start :: es.map Prod.snd).Pairwise (· ≤ ·))
    (htame : Along watchedStep (fun p e => Tame p.1 e) (started s fetch start) es) :
    Along watchedStep Lawful (started s fetch start) es := by
  have hrun : ∀ (es : List Event) (p : Backend × Watches) (now : ℚ), Inv p.1 p.2 now →
      (now :: es.map Prod.snd).Pairwise (· ≤ ·) → Along watchedStep (fun p e => Tame p.1 e) p es →
      Along watchedStep Lawful p es := by
    intro es
    induction es with
    | nil => exact fun _ _ _ _ _ => trivial
    | cons e es ih =>
      intro p now hinv hclock htame
      obtain ⟨hnow, hrest⟩ := List.pairwise_cons.mp hclock
      have hle : now ≤ e.2 := hnow e.2 (by simp)
      exact ⟨hinv.lawful hle, ih (watchedStep p e) e.2 (hinv.step hle htame.1) hrest htame.2⟩
  exact hrun es _ start (inv_restart s (fun _ => none) fetch start) hclock htame

/-- A dataset with an empty registry, in which services have leases. -/
def leasing : Backend where
  datasets := (∅ : Dict String Registry).set "ds" {}
  configs := (∅ : Dict String LeaseConfig).set "ds" { enabled := true }

def register (leaseTtl : Option ℤ) : Action :=
  .registerGeneric "ds" { serviceId := some "svc", name := "first", description := "a service", leaseTtl } none

/-- A service that is registered, heard of once and then deleted, when its lease has run out. -/
def forgotten : List Event :=
  [(register (some 10), 0), (.resume 0, 1), (.resume 0, 2), (.heartbeat "ds" "svc", 8), (.sweepTick, 100),
    (.sweepTick, 318), (.resume 0, 320)]

theorem sweeps_lawful_sample :
    Along watchedStep Lawful (started leasing (fun _ => none) 0) forgotten ∧
      (run Backend.step (started leasing (fun _ => none) 0).1 (forgotten.take 6)).entryAt ("ds", "svc") ≠ none ∧
      (run Backend.step (started leasing (fun _ => none) 0).1 forgotten).entryAt ("ds", "svc") = none := by
  exact ⟨sweeps_lawful leasing (fun _ => none) 0 forgotten (by decide +kernel) (by decide +kernel), by decide +kernel,
    by decide +kernel⟩

/-- Leases are turned off, the service registers again without one, and the sweeper deletes it. -/
def madePermanent : List Event :=
  [(register (some 10), 0), (.resume 0, 1), (.resume 0, 2), (.setLeaseConfig "ds" false 10 3600 300, 3), (register none, 4),
    (.resume 0, 5), (.sweepTick, 400), (.resume 0, 401)]

/-- A service that is permanent now is deleted. -/
theorem permanent_deleted : ¬ ∀ (s : Backend) (fetch : String → Option AgentCard) (start : ℚ) (es : List Event),
      (start :: es.map Prod.snd).Pairwise (· ≤ ·) → Along watchedStep Lawful (started s fetch start) es := by
  intro h
  have hrun := h leasing (fun _ => none) 0 madePermanent (by decide +kernel)
  rw [show madePermanent = madePermanent.take 7 ++ [(.resume 0, 401)] from rfl, along_append] at hrun
  obtain ⟨-, hlawful, -⟩ := hrun
  set p := run watchedStep (started leasing (fun _ => none) 0) (madePermanent.take 7) with hp
  -- the sweeper has nothing else to do
  have hresumed : p.1.resumed (.resume 0, 401) = some (.hardDelete ("ds", "svc")) := by
    have hlength : p.1.tasks.length = 1 := by decide +kernel
    have hdelete : p.1.hardDeletes = [("ds", "svc")] := by decide +kernel
    obtain ⟨task, htask⟩ := List.length_eq_one_iff.mp hlength
    have hmem : Task.hardDelete ("ds", "svc") ∈ p.1.tasks := Backend.mem_hardDeletes.mp (by simp [hdelete])
    rw [htask, List.mem_singleton] at hmem
    simp [Backend.resumed, htask, hmem]
  have hpermanent : (p.1.entryAt ("ds", "svc")).map (·.leaseTtl) = some none := by decide +kernel
  have hgone : (p.1.step (.resume 0, 401)).entryAt ("ds", "svc") = none := by decide +kernel
  obtain ⟨entry, hentry, hnone⟩ := Option.map_eq_some_iff.mp hpermanent
  obtain ⟨w, -, httl, -⟩ := hlawful _ entry hresumed hentry hgone
  exact nomatch hnone.symm.trans httl

end AgentProtocol.Heartbeat
