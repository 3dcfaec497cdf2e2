-- SUMMARY: A2ATimer: timers that are added, refreshed, cancelled and fired in any order, over an event system that delivers late.
import AgentProtocol.Lib.Run
import AgentProtocol.Lib.Table

/-!
# Timers

A timer is armed at the event system with a number of its own, its generation, which the callback of the arming carries.
The sections of `AddTimer`, `CancelTimer`, `RefreshTimer` and `OnTimerFired` under the lock are one step each, and so is
a `RemoveEvent`, which comes later, after the lock is released. The event system may deliver an arming at any time and
in any order, also one that was removed or replaced, but only once.

Ids of timers and of events are `int`, generations are `uint64_t`; the counters that they are drawn from wrap.
-/

namespace AgentProtocol.A2A

open Lib

/-- A number as an `int` holds it. -/
def int32 (n : ℤ) : ℤ := n.bmod (2 ^ 32)

theorem int32_of_lt {n : ℤ} (h : 0 ≤ n) (hlt : n < 2 ^ 31) : int32 n = n :=
  Int.bmod_eq_of_le (by omega) (by omega)

theorem int32_add (m n : ℤ) : int32 (int32 m + n) = int32 (m + n) := Int.bmod_add_bmod

/-- A number as a `uint64_t` holds it. -/
def uint64 (n : ℕ) : ℕ := n % 2 ^ 64

theorem uint64_of_lt {n : ℕ} (h : n < 2 ^ 64) : uint64 n = n := Nat.mod_eq_of_lt h

theorem uint64_add (m n : ℕ) : uint64 (uint64 m + n) = uint64 (m + n) := Nat.mod_add_mod m _ n

/-- `κ` stands for callbacks with their arguments. -/
structure TimerTask (κ : Type) where
  generation : ℕ
  eventId : ℤ
  callback : Option κ

/-- What the event system was given: the callback of the event calls `OnTimerFired` with this id and generation. -/
structure Arming where
  id : ℤ
  generation : ℕ
  eventId : ℤ
  deriving DecidableEq

/-- A callback of a user was run, by the arming at this place. -/
structure Firing (κ : Type) where
  id : ℤ
  arming : ℕ
  callback : κ
  deriving DecidableEq

/-- The timers and the event system: the armings in the order in which they were made, the places of those that were
delivered and of those that were removed, the ids of events that threads still have to call `RemoveEvent` with, and the
callbacks that were run. The first event of the event system is the one that keeps its loop alive. -/
structure A2ATimer (κ : Type) where
  nextId : ℤ := 1
  nextGeneration : ℕ := 1
  nextEventId : ℤ := 2
  tasks : Dict ℤ (TimerTask κ) := ∅
  armings : List Arming := []
  delivered : List ℕ := []
  removed : List ℕ := []
  removals : List ℤ := []
  ran : List (Firing κ) := []

/-- What becomes of a call of `AddTimer` of the event system: it fails before an event id is drawn, or after, or the
event is armed. -/
inductive ArmOutcome where
  | refused
  | failed
  | armed
  deriving DecidableEq

inductive TimerEvent (κ : Type) where
  | addTimer (started : Bool) (ms : ℤ) (callback : Option κ) (outcome : ArmOutcome)
  | cancelTimer (running : Bool) (id : ℤ)
  | refreshTimer (running : Bool) (id ms : ℤ) (outcome : ArmOutcome)
  | removeEvent (i : ℕ)
  | fire (k : ℕ)

namespace A2ATimer

variable {κ : Type}

/-! ## The event system -/

/-- `AddTimer` of the event system, which returns the id of the event. -/
def arm (s : A2ATimer κ) (id : ℤ) (generation : ℕ) : ArmOutcome → A2ATimer κ × ℤ
  | .refused => (s, -1)
  | .failed => ({ s with nextEventId := int32 (s.nextEventId + 1) }, -1)
  | .armed =>
    ({ s with
        nextEventId := int32 (s.nextEventId + 1)
        armings := s.armings ++ [{ id := id, generation := generation, eventId := s.nextEventId }] },
      s.nextEventId)

def places (s : A2ATimer κ) (eventId : ℤ) : List ℕ :=
  (List.range s.armings.length).filter fun k => s.armings[k]?.any fun a => a.eventId = eventId

/-- `RemoveEvent` -/
def removeEvent (s : A2ATimer κ) (eventId : ℤ) : A2ATimer κ :=
  { s with removed := s.removed ++ s.places eventId }

/-! ## The timer -/

/-- `AddTimer`: the id of the timer, or -1. -/
def addTimer (s : A2ATimer κ) (started : Bool) (ms : ℤ) (callback : Option κ) (outcome : ArmOutcome) : A2ATimer κ × ℤ :=
  if ms ≤ 0 then (s, -1)
  else if !started then (s, -1)
  else
    let id := s.nextId
    let generation := s.nextGeneration
    let s := { s with nextId := int32 (s.nextId + 1), nextGeneration := uint64 (s.nextGeneration + 1) }
    let (s, eventId) := s.arm id generation outcome
    if eventId < 0 then (s, -1)
    else
      let task : TimerTask κ := { generation := generation, eventId := eventId, callback := callback }
      -- `emplace` keeps an entry that is there
      ({ s with tasks := if s.tasks.contains id then s.tasks else s.tasks.set id task }, id)

/-- `CancelTimer` up to the `RemoveEvent`. -/
def cancelTimer (s : A2ATimer κ) (running : Bool) (id : ℤ) : A2ATimer κ :=
  if !running then s
  else
    match s.tasks.lookup id with
    | none => s
    | some task =>
      { s with
        tasks := s.tasks.erase id
        removals := if 0 ≤ task.eventId then s.removals ++ [task.eventId] else s.removals }

/-- `RefreshTimer` up to the `RemoveEvent`, with its result. -/
def refreshTimer (s : A2ATimer κ) (running : Bool) (id ms : ℤ) (outcome : ArmOutcome) : A2ATimer κ × ℤ :=
  if !running then (s, -1)
  else if ms ≤ 0 then (s, -1)
  else
    match s.tasks.lookup id with
    | none => (s, -1)
    | some task =>
      let generation := s.nextGeneration
      let s := { s with nextGeneration := uint64 (s.nextGeneration + 1) }
      let (s, newEventId) := s.arm id generation outcome
      if newEventId < 0 then (s, -1)
      else
        ({ s with
            tasks := s.tasks.set id { task with generation := generation, eventId := newEventId }
            removals := if 0 ≤ task.eventId then s.removals ++ [task.eventId] else s.removals },
          0)

/-- `OnTimerFired`: the callback is moved out under the lock, to be run when it is released. -/
def onTimerFired (s : A2ATimer κ) (id : ℤ) (generation : ℕ) : A2ATimer κ × Option κ :=
  match s.tasks.lookup id with
  | none => (s, none)
  | some task => if task.generation ≠ generation then (s, none) else ({ s with tasks := s.tasks.erase id }, task.callback)

/-- The event system delivers the arming at a place, unless it did before. -/
def fire (s : A2ATimer κ) (k : ℕ) : A2ATimer κ :=
  match s.armings[k]? with
  | none => s
  | some a =>
    if k ∈ s.delivered then s
    else
      let (s, callback) := { s with delivered := k :: s.delivered }.onTimerFired a.id a.generation
      { s with ran := s.ran ++ callback.toList.map fun callback => { id := a.id, arming := k, callback := callback } }

def step (s : A2ATimer κ) : TimerEvent κ → A2ATimer κ
  | .addTimer started ms callback outcome => (s.addTimer started ms callback outcome).1
  | .cancelTimer running id => s.cancelTimer running id
  | .refreshTimer running id ms outcome => (s.refreshTimer running id ms outcome).1
  | .removeEvent i =>
    match s.removals[i]? with
    | none => s
    | some eventId => { s.removeEvent eventId with removals := s.removals.eraseIdx i }
  | .fire k => s.fire k

/-! ## What is promised -/

/-- The arming at a place would run the callback of the timer if it were delivered, and the event system still has it. -/
def Live (s : A2ATimer κ) (id : ℤ) (k : ℕ) : Prop :=
  k ∉ s.delivered ∧ k ∉ s.removed ∧ ∃ a, s.armings[k]? = some a ∧ a.id = id ∧
    ∃ task, s.tasks.lookup id = some task ∧ task.generation = a.generation

/-- The last arming of a timer is at this place. -/
def Newest (s : A2ATimer κ) (id : ℤ) (k : ℕ) : Prop :=
  (∃ a, s.armings[k]? = some a ∧ a.id = id) ∧ ∀ j b, k < j → s.armings[j]? = some b → b.id ≠ id

/-- A callback runs at most once for each timer, and by the last arming that the timer got. A timer that is registered
has exactly one live arming; any other arming that the event system still has is about to be removed. -/
structure Sound (s : A2ATimer κ) : Prop where
  once : ∀ id, s.ran.countP (fun r => r.id = id) ≤ 1
  last : ∀ r ∈ s.ran, s.Newest r.id r.arming
  armed : ∀ id, s.tasks.contains id = true → ∃! k, s.Live id k
  stale : ∀ k a, s.armings[k]? = some a → k ∉ s.delivered → k ∉ s.removed → s.Live a.id k ∨ a.eventId ∈ s.removals

/-- A refresh that fails leaves the timer armed as it was; one that succeeds leaves it with one live arming, the new one. -/
def Refreshes (s : A2ATimer κ) : TimerEvent κ → Prop
  | .refreshTimer running id ms outcome =>
    let (s', result) := s.refreshTimer running id ms outcome
    (result ≠ 0 → s'.tasks = s.tasks ∧ s'.armings = s.armings ∧ s'.removals = s.removals) ∧
      (result = 0 → s'.armings.length = s.armings.length + 1 ∧ ∀ k, s'.Live id k ↔ k = s.armings.length)
  | _ => True

/-- The counters are not at their last values where something is drawn from them. -/
def NoWrap (s : A2ATimer κ) : TimerEvent κ → Prop
  | .addTimer _ _ _ _ => s.nextId + 1 < 2 ^ 31 ∧ s.nextEventId + 1 < 2 ^ 31 ∧ s.nextGeneration + 1 < 2 ^ 64
  | .refreshTimer _ _ _ _ => s.nextEventId + 1 < 2 ^ 31 ∧ s.nextGeneration + 1 < 2 ^ 64
  | _ => True

instance (s : A2ATimer κ) : (e : TimerEvent κ) → Decidable (s.NoWrap e)
  | .addTimer _ _ _ _ => inferInstanceAs (Decidable (_ ∧ _ ∧ _))
  | .refreshTimer _ _ _ _ => inferInstanceAs (Decidable (_ ∧ _))
  | .cancelTimer _ _ | .removeEvent _ | .fire _ => .isTrue trivial

/-! ## The invariant -/

/-- The arming that a timer is registered with, at this place. -/
structure Registered (s : A2ATimer κ) (id : ℤ) (task : TimerTask κ) (k : ℕ) : Prop where
  arming : s.armings[k]? = some { id := id, generation := task.generation, eventId := task.eventId }
  undelivered : k ∉ s.delivered
  present : k ∉ s.removed
  kept : task.eventId ∉ s.removals
  newest : ∀ j b, k < j → s.armings[j]? = some b → b.id ≠ id

structure Inv (s : A2ATimer κ) : Prop where
  nextId : 0 < s.nextId
  nextEventId : 0 < s.nextEventId
  tasks : ∀ id task, s.tasks.lookup id = some task → ∃ k, s.Registered id task k
  sorted : s.armings.Pairwise fun a b => a.generation < b.generation ∧ a.eventId < b.eventId
  fresh : ∀ a ∈ s.armings, a.id < s.nextId ∧ a.generation < s.nextGeneration ∧ 0 < a.eventId ∧ a.eventId < s.nextEventId
  pending : ∀ e ∈ s.removals, e < s.nextEventId
  past : (∀ k ∈ s.delivered, k < s.armings.length) ∧ ∀ k ∈ s.removed, k < s.armings.length
  finished : ∀ r ∈ s.ran, s.tasks.lookup r.id = none
  once : ∀ id, s.ran.countP (fun r => r.id = id) ≤ 1
  last : ∀ r ∈ s.ran, s.Newest r.id r.arming
  stale : ∀ k a, s.armings[k]? = some a → k ∉ s.delivered → k ∉ s.removed → s.Live a.id k ∨ a.eventId ∈ s.removals

variable {s s' : A2ATimer κ} {id : ℤ} {task : TimerTask κ} {a b : Arming} {j k : ℕ}

theorem mem_places {e : ℤ} : k ∈ s.places e ↔ ∃ a, s.armings[k]? = some a ∧ a.eventId = e := by
  simp only [places, List.mem_filter, List.mem_range, Option.any_eq_true, decide_eq_true_eq]
  constructor
  · exact fun h => h.2
  · rintro ⟨a, ha, he⟩
    exact ⟨(List.getElem?_eq_some_iff.mp ha).1, a, ha, he⟩

theorem Registered.of_arming (hk : s.Registered id task k) (ha : s.armings[k]? = some a) :
    a = { id := id, generation := task.generation, eventId := task.eventId } :=
  Option.some.inj (ha.symm.trans hk.arming)

theorem Inv.place_unique (h : s.Inv) (ha : s.armings[j]? = some a) (hb : s.armings[k]? = some b)
    (hsame : a.generation = b.generation ∨ a.eventId = b.eventId) : j = k := by
  obtain ⟨hj, rfl⟩ := List.getElem?_eq_some_iff.mp ha
  obtain ⟨hk, rfl⟩ := List.getElem?_eq_some_iff.mp hb
  have hsorted := List.pairwise_iff_getElem.mp h.sorted
  rcases lt_trichotomy j k with hlt | heq | hlt
  · have := hsorted j k hj hk hlt
    omega
  · exact heq
  · have := hsorted k j hk hj hlt
    omega

theorem Inv.live_iff (h : s.Inv) (htask : s.tasks.lookup id = some task) (hk : s.Registered id task k) : s.Live id j ↔ j = k := by
  constructor
  · rintro ⟨-, -, a, ha, -, task', htask', hg⟩
    cases htask.symm.trans htask'
    exact h.place_unique ha hk.arming (.inl hg.symm)
  · rintro rfl
    exact ⟨hk.undelivered, hk.present, _, hk.arming, rfl, task, htask, rfl⟩

theorem Inv.armed_once (h : s.Inv) (hid : s.tasks.contains id = true) : ∃! k, s.Live id k := by
  obtain ⟨task, htask⟩ := Option.isSome_iff_exists.mp hid
  obtain ⟨k, hk⟩ := h.tasks id task htask
  exact ⟨k, (h.live_iff htask hk).mpr rfl, fun j hj => (h.live_iff htask hk).mp hj⟩

theorem Inv.sound (h : s.Inv) : s.Sound where
  once := h.once
  last := h.last
  armed := fun _ hid => h.armed_once hid
  stale := h.stale

theorem Inv.lt_nextId (h : s.Inv) (htask : s.tasks.lookup id = some task) : id < s.nextId := by
  obtain ⟨k, hk⟩ := h.tasks id task htask
  exact (h.fresh _ (List.mem_of_getElem? hk.arming)).1

theorem Inv.ran_lt_nextId (h : s.Inv) {r : Firing κ} (hr : r ∈ s.ran) : r.id < s.nextId := by
  obtain ⟨⟨a, ha, hid⟩, -⟩ := h.last r hr
  rw [← hid]
  exact (h.fresh a (List.mem_of_getElem? ha)).1

theorem Inv.init : Inv ({} : A2ATimer κ) where
  nextId := Int.one_pos
  nextEventId := show (0 : ℤ) < 2 by decide
  tasks := fun id task htask => by cases htask
  sorted := List.Pairwise.nil
  fresh := fun a ha => by cases ha
  pending := fun e he => by cases he
  past := ⟨fun _ => nofun, fun _ => nofun⟩
  finished := fun r hr => by cases hr
  once := fun id => Nat.zero_le 1
  last := fun r hr => by cases hr
  stale := fun k a ha => by cases ha

theorem Inv.draw (h : s.Inv) {nextId nextEventId : ℤ} {nextGeneration : ℕ} (hid : s.nextId ≤ nextId)
    (hevent : s.nextEventId ≤ nextEventId) (hgeneration : s.nextGeneration ≤ nextGeneration) :
    Inv { s with nextId := nextId, nextEventId := nextEventId, nextGeneration := nextGeneration } where
  nextId := lt_of_lt_of_le h.nextId hid
  nextEventId := lt_of_lt_of_le h.nextEventId hevent
  tasks := fun id task htask => by
    obtain ⟨k, hk⟩ := h.tasks id task htask
    exact ⟨k, hk.arming, hk.undelivered, hk.present, hk.kept, hk.newest⟩
  sorted := h.sorted
  fresh := fun a ha => by
    obtain ⟨hlt, hg, hpos, he⟩ := h.fresh a ha
    exact ⟨lt_of_lt_of_le hlt hid, lt_of_lt_of_le hg hgeneration, hpos, lt_of_lt_of_le he hevent⟩
  pending := fun e he => lt_of_lt_of_le (h.pending e he) hevent
  past := h.past
  finished := h.finished
  once := h.once
  last := h.last
  stale := h.stale

theorem arm_cases (s : A2ATimer κ) (id : ℤ) (generation : ℕ) (outcome : ArmOutcome) (hpos : 0 < s.nextEventId)
    (hlt : s.nextEventId + 1 < 2 ^ 31) :
    (∃ nextEventId, s.nextEventId ≤ nextEventId ∧ s.arm id generation outcome = ({ s with nextEventId := nextEventId }, -1)) ∨
      s.arm id generation outcome =
        ({ s with
            nextEventId := s.nextEventId + 1
            armings := s.armings ++ [{ id := id, generation := generation, eventId := s.nextEventId }] },
          s.nextEventId) := by
  have hnext : int32 (s.nextEventId + 1) = s.nextEventId + 1 := int32_of_lt (by omega) hlt
  cases outcome with
  | refused => exact .inl ⟨s.nextEventId, le_rfl, rfl⟩
  | failed => exact .inl ⟨s.nextEventId + 1, by omega, by rw [arm, hnext]⟩
  | armed => exact .inr (by rw [arm, hnext])

/-- A new arming at the end, of a timer that is registered with it from then on. -/
def rearmed (s : A2ATimer κ) (id : ℤ) (callback : Option κ) (removals : List ℤ) : A2ATimer κ :=
  { s with
    nextGeneration := s.nextGeneration + 1
    nextEventId := s.nextEventId + 1
    armings := s.armings ++ [{ id := id, generation := s.nextGeneration, eventId := s.nextEventId }]
    tasks := s.tasks.set id { generation := s.nextGeneration, eventId := s.nextEventId, callback := callback }
    removals := removals }

variable {l : List Arming}

theorem getElem?_concat (h : l[k]? = some a) : (l ++ [b])[k]? = some a := by
  rw [List.getElem?_append_left (List.getElem?_eq_some_iff.mp h).1]
  exact h

theorem getElem?_concat_cases {b : Arming} (h : (l ++ [b])[k]? = some a) : l[k]? = some a ∨ k = l.length ∧ a = b := by
  rw [List.getElem?_append] at h
  split at h
  next hlt => exact .inl h
  next hge =>
    obtain ⟨hlt, rfl⟩ := List.getElem?_eq_some_iff.mp h
    rw [List.length_singleton] at hlt
    exact .inr ⟨by omega, by simp⟩

variable {callback : Option κ} {removals : List ℤ}

theorem Inv.rearm (h : s.Inv) (hid : id < s.nextId) (hran : ∀ r ∈ s.ran, r.id ≠ id)
    (hremovals : ∀ e, e ∈ removals ↔ e ∈ s.removals ∨ ∃ task, s.tasks.lookup id = some task ∧ e = task.eventId) :
    (s.rearmed id callback removals).Inv := by
  have hlater : ∀ e ∈ removals, e < s.nextEventId := by
    intro e he
    rcases (hremovals e).mp he with he | ⟨task, htask, rfl⟩
    · exact h.pending e he
    · obtain ⟨k, hk⟩ := h.tasks id task htask
      exact (h.fresh _ (List.mem_of_getElem? hk.arming)).2.2.2
  have hend : ∀ j b, s.armings.length < j → (s.rearmed id callback removals).armings[j]? = some b → b.id ≠ id := by
    intro j b hj hb
    have hlt := (List.getElem?_eq_some_iff.mp hb).1
    simp only [rearmed, List.length_append, List.length_singleton] at hlt
    omega
  have hkeep : ∀ {i : ℤ} {k : ℕ}, i ≠ id → (∀ (j : ℕ) (b : Arming), k < j → s.armings[j]? = some b → b.id ≠ i) →
      ∀ (j : ℕ) (b : Arming), k < j → (s.rearmed id callback removals).armings[j]? = some b → b.id ≠ i := by
    intro i k hi hnewest j b hj hb
    rcases getElem?_concat_cases hb with hb | ⟨-, rfl⟩
    · exact hnewest j b hj hb
    · exact hi.symm
  constructor
  · exact h.nextId
  · have := h.nextEventId
    show 0 < s.nextEventId + 1
    omega
  · intro i task htask
    change (s.tasks.set id _).lookup i = some task at htask
    rw [Dict.lookup_set] at htask
    split at htask
    next hi =>
      subst hi
      cases htask
      refine ⟨s.armings.length, ?_, fun hk => ?_, fun hk => ?_, fun hk => ?_, hend⟩
      · exact List.getElem?_concat_length
      · exact lt_irrefl _ (h.past.1 _ hk)
      · exact lt_irrefl _ (h.past.2 _ hk)
      · exact lt_irrefl _ (hlater _ hk)
    next hi =>
      obtain ⟨k, hk⟩ := h.tasks i task htask
      refine ⟨k, getElem?_concat hk.arming, hk.undelivered, hk.present, fun hmem => ?_, hkeep (Ne.symm hi) hk.newest⟩
      rcases (hremovals _).mp hmem with hmem | ⟨task', htask', he⟩
      · exact hk.kept hmem
      · obtain ⟨k', hk'⟩ := h.tasks id task' htask'
        have hsame := h.place_unique hk.arming hk'.arming (.inr he)
        have harming := hk'.of_arming (hsame ▸ hk.arming)
        exact hi (congrArg Arming.id harming).symm
  · refine List.pairwise_append.mpr ⟨h.sorted, List.pairwise_singleton _ _, fun a ha b hb => ?_⟩
    rw [List.mem_singleton.mp hb]
    exact ⟨(h.fresh a ha).2.1, (h.fresh a ha).2.2.2⟩
  · intro a ha
    show a.id < s.nextId ∧ a.generation < s.nextGeneration + 1 ∧ 0 < a.eventId ∧ a.eventId < s.nextEventId + 1
    rcases List.mem_append.mp ha with ha | ha
    · obtain ⟨hlt, hg, hpos, he⟩ := h.fresh a ha
      omega
    · have := h.nextEventId
      rw [List.mem_singleton.mp ha]
      exact ⟨hid, by dsimp only; omega, this, by dsimp only; omega⟩
  · intro e he
    have := hlater e he
    show e < s.nextEventId + 1
    omega
  · simp only [rearmed, List.length_append, List.length_singleton]
    exact ⟨fun k hk => Nat.lt_succ_of_lt (h.past.1 k hk), fun k hk => Nat.lt_succ_of_lt (h.past.2 k hk)⟩
  · intro r hr
    exact (Dict.lookup_set_of_ne (hran r hr).symm).trans (h.finished r hr)
  · exact h.once
  · intro r hr
    obtain ⟨⟨a, ha, hsame⟩, hnewest⟩ := h.last r hr
    exact ⟨⟨a, getElem?_concat ha, hsame⟩, hkeep (hran r hr) hnewest⟩
  · intro k a ha hdelivered hremoved
    rcases getElem?_concat_cases ha with hold | ⟨rfl, rfl⟩
    · rcases h.stale k a hold hdelivered hremoved with ⟨-, -, b, hb, -, task, htask, hg⟩ | hmem
      · cases hold.symm.trans hb
        by_cases hi : a.id = id
        · -- the arming that is replaced
          refine .inr ((hremovals _).mpr (.inr ⟨task, hi ▸ htask, ?_⟩))
          obtain ⟨k', hk'⟩ := h.tasks _ task htask
          have hsame := h.place_unique hold hk'.arming (.inl hg.symm)
          exact congrArg Arming.eventId (hk'.of_arming (hsame ▸ hold))
        · exact .inl ⟨hdelivered, hremoved, a, ha, rfl, task, (Dict.lookup_set_of_ne (Ne.symm hi)).trans htask, hg⟩
      · exact .inr ((hremovals _).mpr (.inl hmem))
    · exact .inl ⟨hdelivered, hremoved, _, ha, rfl, _, Dict.lookup_set_self _ _ _, rfl⟩

theorem Inv.unregister (h : s.Inv) (htask : s.tasks.lookup id = some task) (hk : s.Registered id task k) {delivered : List ℕ}
    {new : List (Firing κ)} (hdelivered : s.delivered ⊆ delivered)
    (hmore : ∀ j ∈ delivered, j ∈ s.delivered ∨ j = k) (hremovals : s.removals ⊆ removals)
    (hlater : ∀ e ∈ removals, e ∈ s.removals ∨ e = task.eventId) (hgone : k ∈ delivered ∨ task.eventId ∈ removals)
    (hlength : new.length ≤ 1) (hnew : ∀ r ∈ new, r.id = id ∧ r.arming = k) :
    Inv { s with delivered := delivered, tasks := s.tasks.erase id, removals := removals, ran := s.ran ++ new } := by
  have hother : ∀ {i : ℤ} {t : TimerTask κ}, Dict.lookup (s.tasks.erase id) i = some t → i ≠ id ∧ s.tasks.lookup i = some t := by
    intro i t ht
    rw [Dict.lookup_erase] at ht
    split at ht
    · cases ht
    next hi => exact ⟨hi, ht⟩
  have hran : ∀ r ∈ s.ran, r.id ≠ id := by
    intro r hr hid
    have hnone := h.finished r hr
    rw [hid, htask] at hnone
    cases hnone
  constructor
  · exact h.nextId
  · exact h.nextEventId
  · intro i t ht
    obtain ⟨hi, ht⟩ := hother ht
    obtain ⟨k', hk'⟩ := h.tasks i t ht
    have hdiffer : k' ≠ k ∧ t.eventId ≠ task.eventId := by
      have hplace : k' ≠ k := by
        rintro rfl
        exact hi (congrArg Arming.id (hk.of_arming hk'.arming))
      exact ⟨hplace, fun he => hplace (h.place_unique hk'.arming hk.arming (.inr he))⟩
    refine ⟨k', hk'.arming, fun hmem => ?_, hk'.present, fun hmem => ?_, hk'.newest⟩
    · rcases hmore k' hmem with hold | hnow
      · exact hk'.undelivered hold
      · exact hdiffer.1 hnow
    · rcases hlater _ hmem with hold | hnow
      · exact hk'.kept hold
      · exact hdiffer.2 hnow
  · exact h.sorted
  · exact h.fresh
  · intro e he
    rcases hlater e he with he | rfl
    · exact h.pending e he
    · exact (h.fresh _ (List.mem_of_getElem? hk.arming)).2.2.2
  · refine ⟨fun j hj => ?_, h.past.2⟩
    rcases hmore j hj with hj | rfl
    · exact h.past.1 j hj
    · exact (List.getElem?_eq_some_iff.mp hk.arming).1
  · intro r hr
    show Dict.lookup (s.tasks.erase id) r.id = none
    rw [Dict.lookup_erase]
    rcases List.mem_append.mp hr with hr | hr
    · rw [h.finished r hr, ite_self]
    · rw [if_pos (hnew r hr).1]
  · intro i
    show (s.ran ++ new).countP _ ≤ 1
    rw [List.countP_append]
    by_cases hi : i = id
    · have hnone : s.ran.countP (fun r => r.id = i) = 0 := by
        rw [List.countP_eq_zero]
        intro r hr
        simpa [hi] using hran r hr
      have hle : new.countP (fun r => r.id = i) ≤ new.length := List.countP_le_length
      omega
    · have hnone : new.countP (fun r => r.id = i) = 0 := by
        rw [List.countP_eq_zero]
        intro r hr
        simpa [(hnew r hr).1] using Ne.symm hi
      have hle := h.once i
      omega
  · intro r hr
    rcases List.mem_append.mp hr with hr | hr
    · exact h.last r hr
    · obtain ⟨hid, hplace⟩ := hnew r hr
      show s.Newest r.id r.arming
      rw [hid, hplace]
      exact ⟨⟨_, hk.arming, rfl⟩, hk.newest⟩
  · intro j a ha hundelivered hpresent
    rcases h.stale j a ha (fun hj => hundelivered (hdelivered hj)) hpresent with hlive | hmem
    · by_cases hi : a.id = id
      · -- the arming of the timer that is taken out
        rw [hi] at hlive
        have hj := (h.live_iff htask hk).mp hlive
        subst hj
        rw [hk.of_arming ha]
        exact .inr (hgone.resolve_left hundelivered)
      · obtain ⟨-, -, b, hb, hid, t, ht, hg⟩ := hlive
        refine .inl ⟨hundelivered, hpresent, b, hb, hid, t, ?_, hg⟩
        show Dict.lookup (s.tasks.erase id) a.id = some t
        rw [Dict.lookup_erase, if_neg hi]
        exact ht
    · exact .inr (hremovals hmem)

theorem Inv.deliver (h : s.Inv) (ha : s.armings[k]? = some a)
    (hstale : ∀ task, s.tasks.lookup a.id = some task → task.generation ≠ a.generation) :
    Inv { s with delivered := k :: s.delivered } where
  nextId := h.nextId
  nextEventId := h.nextEventId
  tasks := fun id task htask => by
    obtain ⟨k', hk'⟩ := h.tasks id task htask
    refine ⟨k', hk'.arming, fun hmem => ?_, hk'.present, hk'.kept, hk'.newest⟩
    rcases List.mem_cons.mp hmem with rfl | hmem
    · rw [hk'.of_arming ha] at hstale
      exact hstale task htask rfl
    · exact hk'.undelivered hmem
  sorted := h.sorted
  fresh := h.fresh
  pending := h.pending
  past := by
    refine ⟨fun j hj => ?_, h.past.2⟩
    rcases List.mem_cons.mp hj with rfl | hj
    · exact (List.getElem?_eq_some_iff.mp ha).1
    · exact h.past.1 j hj
  finished := h.finished
  once := h.once
  last := h.last
  stale := fun j b hb hdelivered hremoved => by
    rcases h.stale j b hb (fun hj => hdelivered (List.mem_cons_of_mem k hj)) hremoved with ⟨-, hlive⟩ | hmem
    · exact .inl ⟨hdelivered, hlive⟩
    · exact .inr hmem

theorem Inv.remove (h : s.Inv) {i : ℕ} {e : ℤ} (he : s.removals[i]? = some e) :
    Inv { s.removeEvent e with removals := s.removals.eraseIdx i } where
  nextId := h.nextId
  nextEventId := h.nextEventId
  tasks := fun id task htask => by
    obtain ⟨k, hk⟩ := h.tasks id task htask
    refine ⟨k, hk.arming, hk.undelivered, fun hmem => ?_, fun hmem => hk.kept (List.mem_of_mem_eraseIdx hmem), hk.newest⟩
    rcases List.mem_append.mp hmem with hmem | hmem
    · exact hk.present hmem
    · obtain ⟨a, ha, hevent⟩ := mem_places.mp hmem
      have hsame : task.eventId = e := by rw [← hevent, hk.of_arming ha]
      exact hk.kept (hsame ▸ List.mem_of_getElem? he)
  sorted := h.sorted
  fresh := h.fresh
  pending := fun e' he' => h.pending e' (List.mem_of_mem_eraseIdx he')
  past := by
    refine ⟨h.past.1, fun k hk => ?_⟩
    rcases List.mem_append.mp hk with hk | hk
    · exact h.past.2 k hk
    · obtain ⟨a, ha, -⟩ := mem_places.mp hk
      exact (List.getElem?_eq_some_iff.mp ha).1
  finished := h.finished
  once := h.once
  last := h.last
  stale := fun k a ha hdelivered hremoved => by
    have hevent : a.eventId ≠ e := by
      intro hevent
      exact hremoved (List.mem_append_right _ (mem_places.mpr ⟨a, ha, hevent⟩))
    rcases h.stale k a ha hdelivered (fun hk => hremoved (List.mem_append_left _ hk)) with ⟨-, -, hlive⟩ | hmem
    · exact .inl ⟨hdelivered, hremoved, hlive⟩
    · obtain ⟨j, hj⟩ := List.mem_iff_getElem?.mp hmem
      refine .inr (List.mem_eraseIdx_iff_getElem?.mpr ⟨j, fun hij => ?_, hj⟩)
      rw [hij, he] at hj
      exact hevent (Option.some.inj hj).symm

/-! ## What a step does -/

variable {outcome : ArmOutcome}

variable {ms : ℤ}

theorem Inv.addTimer_cases (h : s.Inv) {started : Bool} (hw : s.NoWrap (.addTimer started ms callback outcome)) :
    (∃ nextId nextEventId nextGeneration, s.nextId ≤ nextId ∧ s.nextEventId ≤ nextEventId ∧ s.nextGeneration ≤ nextGeneration ∧
      s.addTimer started ms callback outcome =
        ({ s with nextId := nextId, nextEventId := nextEventId, nextGeneration := nextGeneration }, -1)) ∨
    s.addTimer started ms callback outcome =
      ({ s with nextId := s.nextId + 1 }.rearmed s.nextId callback s.removals, s.nextId) := by
  obtain ⟨hid, hevent, hgeneration⟩ := hw
  have hnextId : int32 (s.nextId + 1) = s.nextId + 1 := by
    have := h.nextId
    exact int32_of_lt (by omega) hid
  have hnextGeneration : uint64 (s.nextGeneration + 1) = s.nextGeneration + 1 := uint64_of_lt hgeneration
  have hnew : s.tasks.contains s.nextId = false := by
    cases htask : s.tasks.lookup s.nextId with
    | none => simp [Dict.contains, htask]
    | some task => exact absurd (h.lt_nextId htask) (lt_irrefl _)
  have hunchanged : s.addTimer started ms callback outcome = (s, -1) → ∃ nextId nextEventId nextGeneration, s.nextId ≤ nextId ∧
      s.nextEventId ≤ nextEventId ∧ s.nextGeneration ≤ nextGeneration ∧ s.addTimer started ms callback outcome =
        ({ s with nextId := nextId, nextEventId := nextEventId, nextGeneration := nextGeneration }, -1) :=
    fun hs => ⟨s.nextId, s.nextEventId, s.nextGeneration, le_rfl, le_rfl, le_rfl, hs⟩
  by_cases hms : ms ≤ 0
  · exact .inl (hunchanged (by rw [addTimer, if_pos hms]))
  cases started with
  | false => exact .inl (hunchanged (by rw [addTimer, if_neg hms]; rfl))
  | true =>
    have hadd : s.addTimer true ms callback outcome =
        let (s', eventId) :=
          { s with nextId := s.nextId + 1, nextGeneration := s.nextGeneration + 1 }.arm s.nextId s.nextGeneration outcome
        if eventId < 0 then (s', -1)
        else
          ({ s' with
              tasks := if s'.tasks.contains s.nextId then s'.tasks
                else s'.tasks.set s.nextId { generation := s.nextGeneration, eventId := eventId, callback := callback } },
            s.nextId) := by
      rw [addTimer, if_neg hms, hnextId, hnextGeneration]
      rfl
    rcases arm_cases { s with nextId := s.nextId + 1, nextGeneration := s.nextGeneration + 1 } s.nextId s.nextGeneration outcome
      h.nextEventId hevent with ⟨nextEventId, hle, harm⟩ | harm
    · refine .inl ⟨s.nextId + 1, nextEventId, s.nextGeneration + 1, by omega, hle, by omega, ?_⟩
      rw [hadd, harm]
      rfl
    · refine .inr ?_
      have hpos : ¬s.nextEventId < 0 := not_lt.mpr h.nextEventId.le
      rw [hadd, harm]
      simp only [if_neg hpos, hnew, Bool.false_eq_true, if_false]
      rfl

theorem Inv.refreshTimer_cases (h : s.Inv) {running : Bool} (hw : s.NoWrap (.refreshTimer running id ms outcome)) :
    (∃ nextEventId nextGeneration, s.nextEventId ≤ nextEventId ∧ s.nextGeneration ≤ nextGeneration ∧
      s.refreshTimer running id ms outcome = ({ s with nextEventId := nextEventId, nextGeneration := nextGeneration }, -1)) ∨
    ∃ task, s.tasks.lookup id = some task ∧
      s.refreshTimer running id ms outcome = (s.rearmed id task.callback (s.removals ++ [task.eventId]), 0) := by
  obtain ⟨hevent, hgeneration⟩ := hw
  have hnextGeneration : uint64 (s.nextGeneration + 1) = s.nextGeneration + 1 := uint64_of_lt hgeneration
  have hunchanged : s.refreshTimer running id ms outcome = (s, -1) → ∃ nextEventId nextGeneration, s.nextEventId ≤ nextEventId ∧
      s.nextGeneration ≤ nextGeneration ∧ s.refreshTimer running id ms outcome =
        ({ s with nextEventId := nextEventId, nextGeneration := nextGeneration }, -1) :=
    fun hs => ⟨s.nextEventId, s.nextGeneration, le_rfl, le_rfl, hs⟩
  cases running with
  | false => exact .inl (hunchanged rfl)
  | true =>
    by_cases hms : ms ≤ 0
    · exact .inl (hunchanged (by simp [refreshTimer, hms]))
    cases htask : s.tasks.lookup id with
    | none => exact .inl (hunchanged (by simp [refreshTimer, hms, htask]))
    | some task =>
      have hrefresh : s.refreshTimer true id ms outcome =
          let (s', newEventId) := { s with nextGeneration := s.nextGeneration + 1 }.arm id s.nextGeneration outcome
          if newEventId < 0 then (s', -1)
          else
            ({ s' with
                tasks := s'.tasks.set id { task with generation := s.nextGeneration, eventId := newEventId }
                removals := if 0 ≤ task.eventId then s'.removals ++ [task.eventId] else s'.removals },
              0) := by
        simp only [refreshTimer, Bool.not_true, Bool.false_eq_true, if_false, if_neg hms, htask, hnextGeneration]
      rcases arm_cases { s with nextGeneration := s.nextGeneration + 1 } id s.nextGeneration outcome h.nextEventId hevent with
        ⟨nextEventId, hle, harm⟩ | harm
      · refine .inl ⟨nextEventId, s.nextGeneration + 1, hle, by omega, ?_⟩
        rw [hrefresh, harm]
        rfl
      · refine .inr ⟨task, rfl, ?_⟩
        have hpos : ¬s.nextEventId < 0 := not_lt.mpr h.nextEventId.le
        obtain ⟨k, hk⟩ := h.tasks id task htask
        have hold : 0 ≤ task.eventId := (h.fresh _ (List.mem_of_getElem? hk.arming)).2.2.1.le
        rw [hrefresh, harm]
        simp only [if_neg hpos, if_pos hold]
        rfl

theorem fire_cases (s : A2ATimer κ) (k : ℕ) : s.fire k = s ∨ ∃ a, s.armings[k]? = some a ∧ k ∉ s.delivered ∧
      ((∀ task, s.tasks.lookup a.id = some task → task.generation ≠ a.generation) ∧
          s.fire k = { s with delivered := k :: s.delivered } ∨
        ∃ task, s.tasks.lookup a.id = some task ∧ task.generation = a.generation ∧
          s.fire k = { s with
            delivered := k :: s.delivered
            tasks := s.tasks.erase a.id
            ran := s.ran ++ task.callback.toList.map fun callback => { id := a.id, arming := k, callback := callback } }) := by
  unfold fire
  cases ha : s.armings[k]? with
  | none => exact .inl rfl
  | some a =>
    by_cases hk : k ∈ s.delivered
    · exact .inl (by simp only [if_pos hk])
    · refine .inr ⟨a, rfl, hk, ?_⟩
      simp only [if_neg hk, onTimerFired]
      cases htask : s.tasks.lookup a.id with
      | none => exact .inl ⟨by rintro _ ⟨⟩, by simp⟩
      | some task =>
        by_cases hg : task.generation = a.generation
        · exact .inr ⟨task, rfl, hg, by simp [hg]⟩
        · refine .inl ⟨fun task' hsome => ?_, by simp [hg]⟩
          cases hsome
          exact hg

theorem Inv.registered_of_generation (h : s.Inv) (ha : s.armings[k]? = some a) (htask : s.tasks.lookup a.id = some task)
    (hg : task.generation = a.generation) : s.Registered a.id task k := by
  obtain ⟨k', hk'⟩ := h.tasks a.id task htask
  rw [h.place_unique ha hk'.arming (.inl hg.symm)]
  exact hk'

variable {e : TimerEvent κ}

theorem Inv.step (h : s.Inv) (hw : s.NoWrap e) : (s.step e).Inv := by
  cases e with
  | addTimer started ms callback outcome =>
    rcases h.addTimer_cases hw with ⟨nextId, nextEventId, nextGeneration, hid, hevent, hgeneration, hadd⟩ | hadd
    · rw [A2ATimer.step, hadd]
      exact h.draw hid hevent hgeneration
    · rw [A2ATimer.step, hadd]
      have hdraw : Inv { s with nextId := s.nextId + 1 } := h.draw (by omega) le_rfl le_rfl
      refine hdraw.rearm (by dsimp only; omega) (fun r hr => (h.ran_lt_nextId hr).ne) fun e => ?_
      refine ⟨.inl, fun he => he.resolve_right ?_⟩
      rintro ⟨task, htask, -⟩
      exact lt_irrefl _ (h.lt_nextId htask)
  | cancelTimer running id =>
    cases running with
    | false => exact h
    | true =>
      cases htask : s.tasks.lookup id with
      | none =>
        have hsame : s.cancelTimer true id = s := by simp [cancelTimer, htask]
        rw [A2ATimer.step, hsame]
        exact h
      | some task =>
        obtain ⟨k, hk⟩ := h.tasks id task htask
        have hpos : 0 ≤ task.eventId := (h.fresh _ (List.mem_of_getElem? hk.arming)).2.2.1.le
        have hcancel : s.cancelTimer true id =
            { s with
              delivered := s.delivered
              tasks := s.tasks.erase id
              removals := s.removals ++ [task.eventId]
              ran := s.ran ++ [] } := by
          simp [cancelTimer, htask, hpos]
        rw [A2ATimer.step, hcancel]
        refine h.unregister htask hk (List.Subset.refl _) (fun j hj => .inl hj) (List.subset_append_left _ _) (fun e he => ?_)
          (.inr (List.mem_append_right _ (List.mem_singleton_self _))) (Nat.zero_le 1) (fun r hr => by cases hr)
        rcases List.mem_append.mp he with he | he
        · exact .inl he
        · exact .inr (List.mem_singleton.mp he)
  | refreshTimer running id ms outcome =>
    rcases h.refreshTimer_cases hw with ⟨nextEventId, nextGeneration, hevent, hgeneration, hrefresh⟩ | ⟨task, htask, hrefresh⟩
    · rw [A2ATimer.step, hrefresh]
      exact h.draw le_rfl hevent hgeneration
    · rw [A2ATimer.step, hrefresh]
      refine h.rearm (h.lt_nextId htask) (fun r hr hid => ?_) fun e => ?_
      · have hnone := h.finished r hr
        rw [hid, htask] at hnone
        cases hnone
      · simp [htask]
  | removeEvent i =>
    rw [A2ATimer.step]
    cases he : s.removals[i]? with
    | none => exact h
    | some e => exact h.remove he
  | fire k =>
    rw [A2ATimer.step]
    rcases s.fire_cases k with hsame | ⟨a, ha, hk, ⟨hstale, hfire⟩ | ⟨task, htask, hg, hfire⟩⟩
    · rw [hsame]
      exact h
    · rw [hfire]
      exact h.deliver ha hstale
    · rw [hfire]
      refine h.unregister htask (h.registered_of_generation ha htask hg) (List.subset_cons_self k _) (fun j hj => ?_)
        (List.Subset.refl _) (fun e he => .inl he) (.inl List.mem_cons_self) ?_ ?_
      · exact (List.mem_cons.mp hj).symm
      · cases task.callback <;> simp
      · intro r hr
        obtain ⟨callback, -, rfl⟩ := List.mem_map.mp hr
        exact ⟨rfl, rfl⟩

theorem Inv.refreshes (h : s.Inv) (hw : s.NoWrap e) : s.Refreshes e := by
  cases e with
  | refreshTimer running id ms outcome =>
    have hinv := h.step hw
    rw [A2ATimer.step] at hinv
    rw [Refreshes]
    rcases h.refreshTimer_cases hw with ⟨nextEventId, nextGeneration, -, -, hrefresh⟩ | ⟨task, -, hrefresh⟩
    · rw [hrefresh]
      exact ⟨fun _ => ⟨rfl, rfl, rfl⟩, fun hzero => by cases hzero⟩
    · rw [hrefresh] at hinv ⊢
      refine ⟨fun hne => absurd rfl hne, fun _ => ⟨List.length_append, fun k => ?_⟩⟩
      have htask : (s.rearmed id task.callback (s.removals ++ [task.eventId])).tasks.lookup id = some _ :=
        Dict.lookup_set_self _ _ _
      have hplace : (s.rearmed id task.callback (s.removals ++ [task.eventId])).armings[s.armings.length]? = some _ :=
        List.getElem?_concat_length
      exact hinv.live_iff htask (hinv.registered_of_generation hplace htask rfl)
  | addTimer _ _ _ _ | cancelTimer _ _ | removeEvent _ | fire _ => trivial

/-! ## Timers that are gone -/

/-- The id was drawn, and there is no timer with it any more. -/
def Gone (s : A2ATimer κ) (id : ℤ) : Prop := id < s.nextId ∧ s.tasks.lookup id = none

theorem Inv.gone_cancelTimer (h : s.Inv) (hid : ∃ a ∈ s.armings, a.id = id) : (s.cancelTimer true id).Gone id := by
  obtain ⟨a, ha, rfl⟩ := hid
  have hlt := (h.fresh a ha).1
  unfold cancelTimer
  cases htask : s.tasks.lookup a.id with
  | none => exact ⟨hlt, htask⟩
  | some task =>
    refine ⟨hlt, ?_⟩
    show Dict.lookup (s.tasks.erase a.id) a.id = none
    rw [Dict.lookup_erase, if_pos rfl]

theorem Inv.gone_step (h : s.Inv) (hw : s.NoWrap e) (hgone : s.Gone id) :
    (s.step e).Gone id ∧ (s.step e).ran.filter (fun r => r.id = id) = s.ran.filter fun r => r.id = id := by
  obtain ⟨hlt, hnone⟩ := hgone
  cases e with
  | addTimer started ms callback outcome =>
    rcases h.addTimer_cases hw with ⟨nextId, nextEventId, nextGeneration, hid, hevent, hgeneration, hadd⟩ | hadd
    · rw [A2ATimer.step, hadd]
      exact ⟨⟨lt_of_lt_of_le hlt hid, hnone⟩, rfl⟩
    · rw [A2ATimer.step, hadd]
      refine ⟨⟨?_, (Dict.lookup_set_of_ne hlt.ne').trans hnone⟩, rfl⟩
      show id < s.nextId + 1
      omega
  | cancelTimer running i =>
    rw [A2ATimer.step]
    unfold cancelTimer
    cases running with
    | false => exact ⟨⟨hlt, hnone⟩, rfl⟩
    | true =>
      cases htask : s.tasks.lookup i with
      | none => exact ⟨⟨hlt, hnone⟩, rfl⟩
      | some task =>
        refine ⟨⟨hlt, ?_⟩, rfl⟩
        show Dict.lookup (s.tasks.erase i) id = none
        rw [Dict.lookup_erase, hnone, ite_self]
  | refreshTimer running i ms outcome =>
    rcases h.refreshTimer_cases hw with ⟨nextEventId, nextGeneration, hevent, hgeneration, hrefresh⟩ | ⟨task, htask, hrefresh⟩
    · rw [A2ATimer.step, hrefresh]
      exact ⟨⟨hlt, hnone⟩, rfl⟩
    · have hne : i ≠ id := by
        rintro rfl
        rw [hnone] at htask
        cases htask
      rw [A2ATimer.step, hrefresh]
      exact ⟨⟨hlt, (Dict.lookup_set_of_ne hne).trans hnone⟩, rfl⟩
  | removeEvent i =>
    rw [A2ATimer.step]
    cases s.removals[i]? with
    | none | some => exact ⟨⟨hlt, hnone⟩, rfl⟩
  | fire k =>
    rw [A2ATimer.step]
    rcases s.fire_cases k with hsame | ⟨a, -, -, ⟨-, hfire⟩ | ⟨task, htask, -, hfire⟩⟩
    · rw [hsame]
      exact ⟨⟨hlt, hnone⟩, rfl⟩
    · rw [hfire]
      exact ⟨⟨hlt, hnone⟩, rfl⟩
    · have hne : a.id ≠ id := by
        intro hid
        rw [hid, hnone] at htask
        cases htask
      rw [hfire]
      refine ⟨⟨hlt, ?_⟩, ?_⟩
      · show Dict.lookup (s.tasks.erase a.id) id = none
        rw [Dict.lookup_erase, hnone, ite_self]
      · rw [List.filter_append]
        cases task.callback <;> simp [hne]

/-! ## Runs -/

variable {es : List (TimerEvent κ)}

theorem inv_run (h : s.Inv) (hw : Along step NoWrap s es) : (run step s es).Inv :=
  hw.invariant h fun _ _ hinv he => hinv.step he

theorem gone_run (h : s.Inv) (hgone : s.Gone id) (hw : Along step NoWrap s es) :
    (run step s es).ran.filter (fun r => r.id = id) = s.ran.filter fun r => r.id = id := by
  induction es generalizing s with
  | nil => rfl
  | cons e es ih =>
    obtain ⟨hgone', hsame⟩ := h.gone_step hw.1 hgone
    rw [run_cons, ih (h.step hw.1) hgone' hw.2, hsame]

/-- In every run in which no counter wraps the callback of a timer runs at most once, and only by the last arming of the
timer; each refresh does what it says, and no callback is run after its timer was cancelled. -/
theorem fires_once (es : List (TimerEvent κ)) (h : Along step NoWrap {} es) :
    (run step {} es).Sound ∧ Along step Refreshes {} es ∧
      ∀ pre id post, es = pre ++ .cancelTimer true id :: post → (∃ a ∈ (run step {} pre).armings, a.id = id) →
        (run step {} es).ran.filter (fun r => r.id = id) = (run step {} pre).ran.filter fun r => r.id = id := by
  refine ⟨(inv_run Inv.init h).sound, ?_, ?_⟩
  · exact h.imp Inv.init (fun _ _ hinv he => hinv.step he) fun _ _ hinv he => hinv.refreshes he
  · rintro pre id post rfl hid
    obtain ⟨hpre, -, hpost⟩ := along_append.mp h
    have hinv : (run step {} pre).Inv := inv_run Inv.init hpre
    have hran : ((run step {} pre).cancelTimer true id).ran = (run step {} pre).ran := by
      unfold cancelTimer
      cases (run step {} pre).tasks.lookup id <;> rfl
    rw [run_append, run_cons, gone_run (hinv.step (e := .cancelTimer true id) trivial) (hinv.gone_cancelTimer hid) hpost, step, hran]

theorem fires_once_refreshed :
    let es : List (TimerEvent ℕ) :=
      [.addTimer true 5 (some 7) .armed, .refreshTimer true 1 5 .armed, .fire 0, .removeEvent 0, .refreshTimer true 1 5 .failed,
        .fire 1, .cancelTimer true 1]
    (run step {} es).Sound ∧ Along step Refreshes {} es ∧
      ∀ pre id post, es = pre ++ .cancelTimer true id :: post → (∃ a ∈ (run step {} pre).armings, a.id = id) →
        (run step {} es).ran.filter (fun r => r.id = id) = (run step {} pre).ran.filter fun r => r.id = id :=
  fires_once _ (by decide)

/-! ## Counters that wrap -/

theorem run_addTimer_fails (ho : outcome ≠ .armed) (n : ℕ) (hid : int32 s.nextId = s.nextId)
    (hgeneration : uint64 s.nextGeneration = s.nextGeneration) (hevent : int32 s.nextEventId = s.nextEventId) :
    run step s (List.replicate n (.addTimer true 1 none outcome)) = { s with
        nextId := int32 (s.nextId + n)
        nextGeneration := uint64 (s.nextGeneration + n)
        nextEventId := int32 (s.nextEventId + if outcome = .failed then (n : ℤ) else 0) } := by
  induction n generalizing s with
  | zero => simp [hid, hevent, hgeneration]
  | succ n ih =>
    have hidem : ∀ m, int32 (int32 m) = int32 m := fun m => by simpa using int32_add m 0
    have hidem' : ∀ m, uint64 (uint64 m) = uint64 m := fun m => uint64_add m 0
    have hsum' : s.nextGeneration + 1 + n = s.nextGeneration + (n + 1) := by ring
    have hsum : ∀ m : ℤ, m + 1 + (n : ℤ) = m + (n + 1 : ℕ) := fun m => by
      push_cast
      ring
    rw [List.replicate_succ, run_cons]
    cases outcome with
    | refused =>
      have hfirst : step s (.addTimer true 1 none .refused) =
          { s with nextId := int32 (s.nextId + 1), nextGeneration := uint64 (s.nextGeneration + 1) } := by
        simp [step, addTimer, arm]
      rw [hfirst, ih]
      · simp only [int32_add, uint64_add, hsum, hsum']
        rfl
      · exact hidem _
      · exact hidem' _
      · exact hevent
    | failed =>
      have hfirst : step s (.addTimer true 1 none .failed) =
          { s with
            nextId := int32 (s.nextId + 1)
            nextGeneration := uint64 (s.nextGeneration + 1)
            nextEventId := int32 (s.nextEventId + 1) } := by
        simp [step, addTimer, arm]
      rw [hfirst, ih]
      · simp only [int32_add, uint64_add, hsum, hsum', if_pos]
      · exact hidem _
      · exact hidem' _
      · exact hidem _
    | armed => exact absurd rfl ho

/-- A timer that is added and fires, failing calls until its id may come again, and a second timer. -/
def idsWrap (n : ℕ) : List (TimerEvent ℕ) :=
  [TimerEvent.addTimer true 1 (some 7) .armed, .fire 0] ++ (List.replicate n (TimerEvent.addTimer true 1 none .failed) ++
    [TimerEvent.addTimer true 1 (some 7) .armed, .fire 1])

/-- Failing calls between the arming of a timer and a refresh until its generation may come again. -/
def generationsWrap (n : ℕ) : List (TimerEvent ℕ) :=
  [TimerEvent.addTimer true 1 (some 7) .armed] ++ (List.replicate n (TimerEvent.addTimer true 1 none .refused) ++
    [TimerEvent.refreshTimer true 1 1 .armed, .fire 0])

/-- Failing calls until a refresh may get the event id that a thread has still to call `RemoveEvent` with. -/
def eventsWrap (n : ℕ) : List (TimerEvent ℕ) :=
  [TimerEvent.addTimer true 1 (some 7) .armed, .refreshTimer true 1 1 .armed, .fire 0] ++
    (List.replicate n (TimerEvent.addTimer true 1 none .failed) ++ [TimerEvent.refreshTimer true 1 1 .armed, .removeEvent 0])

theorem counters_wrap : ¬(run step {} (idsWrap (2 ^ 32 - 1))).Sound ∧ ¬(run step {} (generationsWrap (2 ^ 64 - 1))).Sound ∧
      ¬(run step {} (eventsWrap (2 ^ 32 - 2))).Sound := by
  refine ⟨fun h => ?_, fun h => ?_, fun h => ?_⟩
  · rw [idsWrap, run_append, run_append, run_addTimer_fails (by decide) _ (by decide) (by decide) (by decide)] at h
    exact absurd (h.once 1) (by decide +kernel)
  · rw [generationsWrap, run_append, run_append, run_addTimer_fails (by decide) _ (by decide) (by decide) (by decide)] at h
    have hlast := (h.last { id := 1, arming := 0, callback := 7 } (by decide +kernel)).2 1
    exact hlast { id := 1, generation := 1, eventId := 3 } Nat.one_pos (by decide +kernel) rfl
  · rw [eventsWrap, run_append, run_append, run_addTimer_fails (by decide) _ (by decide) (by decide) (by decide)] at h
    obtain ⟨k, ⟨hdelivered, hpresent, a, ha, -, task, htask, hg⟩, -⟩ := h.armed 1 (by decide +kernel)
    have hk : k < 3 := lt_of_lt_of_eq (List.getElem?_eq_some_iff.mp ha).1 (by decide +kernel)
    interval_cases k
    · exact hpresent (by decide +kernel)
    · -- the arming that the last refresh has replaced
      have harming : a.generation = 2 :=
        Option.some.inj ((congrArg (Option.map Arming.generation) ha).symm.trans (by decide +kernel))
      have htimer : task.generation = 2 ^ 32 + 1 :=
        Option.some.inj ((congrArg (Option.map TimerTask.generation) htask).symm.trans (by decide +kernel))
      rw [harming, htimer] at hg
      exact absurd hg (by decide)
    · exact hpresent (by decide +kernel)

end A2ATimer

end AgentProtocol.A2A
