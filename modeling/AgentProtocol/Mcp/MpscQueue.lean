-- SUMMARY: The ring buffer queue of many producers and one consumer, step by atomic step, and exactly when it is a bounded FIFO.
import AgentProtocol.Lib.Run
import Mathlib.Tactic.Simps.Basic

/-!
# The MPSC ring buffer

`Push` claims a position with `fetch_add`, waits until the slot of that position is no longer ready, stores the item,
marks the slot ready, and only then counts the item in `size_`. `TryPop` empties the slot at `tail_` and counts last
as well. Every atomic access is one step here, in a sequentially consistent order.

Two things follow from counting late. The consumer can pop an item that has not been counted yet, so `size_` may drop
below zero, and a producer that stands still between its claim and its store can be lapped: the check against
`capacity_` does not see it.
-/

namespace AgentProtocol.Mcp

open Lib

/-! ## The capacity -/

/-- The constructor rounds a capacity up to a power of two, which has 64 bits. -/
structure Capacity where
  value : ℕ
  power : ∃ k ≤ 63, value = 2 ^ k

namespace Capacity

def mask (c : Capacity) : ℕ := c.value - 1

/-- The slot of a position. -/
def index (c : Capacity) (pos : ℕ) : ℕ := pos &&& c.mask

variable {c : Capacity}

theorem pos (c : Capacity) : 0 < c.value := by
  obtain ⟨k, -, hk⟩ := c.power
  rw [hk]
  positivity

theorem value_le (c : Capacity) : c.value ≤ 2 ^ 63 := by
  obtain ⟨k, hk, hvalue⟩ := c.power
  rw [hvalue]
  exact Nat.pow_le_pow_right (by norm_num) hk

theorem index_eq (c : Capacity) (pos : ℕ) : c.index pos = pos % c.value := by
  obtain ⟨k, -, hvalue⟩ := c.power
  rw [index, mask, hvalue, Nat.and_two_pow_sub_one_eq_mod]

theorem index_inj {a b : ℕ} (hle : a ≤ b) (hlap : b < a + c.value) (h : c.index a = c.index b) : a = b := by
  rw [index_eq, index_eq] at h
  have hdvd : c.value ∣ b - a := (Nat.modEq_iff_dvd' hle).mp h
  have hzero := Nat.eq_zero_of_dvd_of_lt hdvd (by omega)
  omega

theorem index_sub {a : ℕ} (h : c.value ≤ a) : c.index (a - c.value) = c.index a := by
  rw [index_eq, index_eq]
  exact (Nat.mod_eq_sub_mod h).symm

end Capacity

/-! ## The queue and its threads -/

variable {α : Type}

structure Node (α : Type) where
  data : Option α := none
  ready : Bool := false

/-- Where a producer that has claimed a slot stands. -/
inductive Stage where
  | waiting
  | storing
  | publishing
  deriving DecidableEq

/-- A thread that calls `Push`. -/
inductive Producer (α : Type) where
  | idle
  | loading (item : α)
  | claiming (item : α)
  | owning (stage : Stage) (item : α) (pos : ℕ)
  | counting (pos : ℕ)

/-- The thread that calls `TryPop`. It goes on with the `tail` that it loaded. -/
inductive Consumer (α : Type) where
  | idle
  | checking (tail : ℕ)
  | taking (tail : ℕ)
  | clearing (tail : ℕ) (data : Option α)
  | advancing (item : α)
  | discounting (item : α)

/-- The queue and its threads. `claimed` are the items in the order of their positions, `returned` the positions whose
`Push` has returned true, and `popped` the items that `TryPop` has returned. -/
structure MpscQueue (α : Type) where
  buffer : ℕ → Node α := fun _ => {}
  head : ℕ := 0
  tail : ℕ := 0
  size : UInt64 := 0
  producers : ℕ → Producer α := fun _ => .idle
  consumer : Consumer α := .idle
  claimed : List α := []
  returned : List ℕ := []
  popped : List α := []

/-- A producer calls `Push`, or a thread makes its next atomic access. The consumer calls `TryPop` over and over. -/
inductive QueueStep (α : Type) where
  | push (p : ℕ) (item : α)
  | producer (p : ℕ)
  | consumer

namespace MpscQueue

@[simps buffer head tail consumer claimed returned]
def setProducer (s : MpscQueue α) (p : ℕ) (next : Producer α) : MpscQueue α :=
  { s with producers := Function.update s.producers p next }

@[simps head tail producers consumer claimed returned]
def setNode (s : MpscQueue α) (i : ℕ) (node : Node α) : MpscQueue α :=
  { s with buffer := Function.update s.buffer i node }

variable (c : Capacity)

/-- The next access of `Push`. -/
def pushStep (s : MpscQueue α) (p : ℕ) : MpscQueue α :=
  match s.producers p with
  | .idle => s
  | .loading item => s.setProducer p (if c.value ≤ s.size.toNat then .idle else .claiming item)
  | .claiming item =>
    { s.setProducer p (.owning .waiting item s.head) with head := s.head + 1, claimed := s.claimed ++ [item] }
  | .owning .waiting item pos =>
    if (s.buffer (c.index pos)).ready then s else s.setProducer p (.owning .storing item pos)
  | .owning .storing item pos =>
    (s.setNode (c.index pos) { s.buffer (c.index pos) with data := some item }).setProducer p (.owning .publishing item pos)
  | .owning .publishing _ pos =>
    (s.setNode (c.index pos) { s.buffer (c.index pos) with ready := true }).setProducer p (.counting pos)
  | .counting pos =>
    { s.setProducer p .idle with size := s.size + 1, returned := s.returned ++ [pos] }

/-- The next access of `TryPop`. -/
def popStep (s : MpscQueue α) : MpscQueue α :=
  match s.consumer with
  | .idle => { s with consumer := .checking s.tail }
  | .checking tail =>
    { s with consumer := if (s.buffer (c.index tail)).ready then .taking tail else .idle }
  | .taking tail =>
    { s.setNode (c.index tail) { s.buffer (c.index tail) with data := none } with
      consumer := .clearing tail (s.buffer (c.index tail)).data }
  | .clearing tail data =>
    { s.setNode (c.index tail) { s.buffer (c.index tail) with ready := false } with
      consumer := match data with
        | some item => .advancing item
        | none => .idle }
  | .advancing item => { s with tail := s.tail + 1, consumer := .discounting item }
  | .discounting item =>
    { s with size := s.size - 1, consumer := .idle, popped := s.popped ++ [item] }

def step (s : MpscQueue α) : QueueStep α → MpscQueue α
  | .push p item =>
    match s.producers p with
    | .idle => s.setProducer p (.loading item)
    | _ => s
  | .producer p => s.pushStep c p
  | .consumer => s.popStep c

/-! ## What is promised -/

end MpscQueue

/-- The position whose slot a producer is filling. -/
def Producer.owned : Producer α → Option ℕ
  | .owning _ _ pos => some pos
  | _ => none

/-- The position that a producer has claimed and not yet returned. -/
def Producer.position : Producer α → Option ℕ
  | .owning _ _ pos => some pos
  | .counting pos => some pos
  | _ => none

/-- The item that a running `TryPop` has taken out of its slot. -/
def Consumer.hand : Consumer α → List α
  | .clearing _ data => data.toList
  | .advancing item => [item]
  | .discounting item => [item]
  | _ => []

namespace MpscQueue

variable (c : Capacity)

/-- The items that `TryPop` has taken out of the slots. -/
def taken (s : MpscQueue α) : List α := s.popped ++ s.consumer.hand

/-- A bounded FIFO. Items are told apart by the positions that they were claimed for. -/
structure BoundedFifo (s : MpscQueue α) : Prop where
  /-- Nothing is popped twice or out of order. -/
  fifo : s.taken <+: s.claimed
  /-- What was pushed has been taken, or is in its slot. -/
  kept : ∀ pos ∈ s.returned, pos < s.taken.length ∨
    (s.buffer (c.index pos)).ready = true ∧ ∃ item, s.claimed[pos]? = some item ∧ (s.buffer (c.index pos)).data = some item
  bounded : ∀ pos ∈ s.returned, pos < s.taken.length + c.value
  /-- No slot has two owners. -/
  owners : ∀ p q pos pos', (s.producers p).owned = some pos → (s.producers q).owned = some pos' →
    c.index pos = c.index pos' → p = q
  /-- `size_` is what was pushed and not popped, so it has not wrapped. -/
  counted : s.size.toNat + s.popped.length = s.returned.length
  /-- With no producer at work on a slot, `TryPop` gets everything that is left. -/
  drains : (∀ p, (s.producers p).position = none) →
    ∃ n, (run (step c) s (List.replicate n .consumer)).popped = s.claimed

/-- No producer claims a slot that another one still fills. -/
def Claims (s : MpscQueue α) : QueueStep α → Prop
  | .producer p => ∀ item, s.producers p = .claiming item →
      ∀ q pos, (s.producers q).owned = some pos → c.index pos ≠ c.index s.head
  | _ => True

/-- No producer claims a slot that another one still fills, and nothing is popped from a count of zero. -/
def Safe (s : MpscQueue α) : QueueStep α → Prop
  | .push _ _ => True
  | .producer p => ∀ item, s.producers p = .claiming item →
      ∀ q pos, (s.producers q).owned = some pos → c.index pos ≠ c.index s.head
  | .consumer => ∀ item, s.consumer = .discounting item → s.size ≠ 0

theorem Safe.claims {c : Capacity} {s : MpscQueue α} {e : QueueStep α} (h : s.Safe c e) : s.Claims c e := by
  cases e with
  | push | consumer => trivial
  | producer p => exact h

/-! ## The invariant -/

/-- How many slots the consumer has given back. -/
def freed (s : MpscQueue α) : ℕ :=
  match s.consumer with
  | .advancing _ => s.tail + 1
  | _ => s.tail

/-- How many items the consumer has taken. -/
def takenCount (s : MpscQueue α) : ℕ :=
  match s.consumer with
  | .clearing _ _ => s.tail + 1
  | .advancing _ => s.tail + 1
  | _ => s.tail

def Owned (s : MpscQueue α) (pos : ℕ) : Prop := ∃ p, (s.producers p).owned = some pos

/-- The slot of the position is filled and not yet given back. -/
def Published (s : MpscQueue α) (pos : ℕ) : Prop := s.freed ≤ pos ∧ pos < s.head ∧ ¬ s.Owned pos

/-- What the consumer knows about the slot it works on. -/
def Knows (s : MpscQueue α) : Consumer α → Prop
  | .checking tail => tail = s.tail
  | .taking tail => tail = s.tail ∧ s.Published tail
  | .clearing tail data => tail = s.tail ∧ s.Published tail ∧ ∃ item, data = some item
  | _ => True

/-- What a producer knows about its slot. -/
structure Owns (s : MpscQueue α) (stage : Stage) (item : α) (pos : ℕ) : Prop where
  live : s.freed ≤ pos
  content : s.claimed[pos]? = some item
  cleared : stage ≠ .waiting → (s.buffer (c.index pos)).ready = false
  stored : stage = .publishing → (s.buffer (c.index pos)).data = some item

structure Inv (s : MpscQueue α) : Prop where
  head : s.head = s.claimed.length
  freed : s.freed ≤ s.head
  positions : ∀ p pos, (s.producers p).position = some pos → pos < s.head ∧ pos ∉ s.returned
  unique : ∀ p q pos, (s.producers p).position = some pos → (s.producers q).position = some pos → p = q
  slots : ∀ p q pos pos', (s.producers p).owned = some pos → (s.producers q).owned = some pos' →
    c.index pos = c.index pos' → p = q
  owns : ∀ p stage item pos, s.producers p = .owning stage item pos → s.Owns c stage item pos
  published : ∀ pos, s.Published pos → (s.buffer (c.index pos)).ready = true ∧ pos < s.freed + c.value ∧
    (s.takenCount ≤ pos → (s.buffer (c.index pos)).data = s.claimed[pos]?)
  ready : ∀ i, (s.buffer i).ready = true → ∃ pos, s.Published pos ∧ c.index pos = i
  taken : s.taken = s.claimed.take s.takenCount
  consumer : s.Knows s.consumer
  returned : ∀ pos ∈ s.returned, pos < s.head
  nodup : s.returned.Nodup
  accounted : ∀ pos, pos < s.head → pos ∈ s.returned ∨ ∃ p, (s.producers p).position = some pos

variable {c} {s : MpscQueue α} {p : ℕ}

@[simp] theorem setProducer_freed {next : Producer α} : (s.setProducer p next).freed = s.freed := rfl
@[simp] theorem setProducer_takenCount {next : Producer α} : (s.setProducer p next).takenCount = s.takenCount := rfl
@[simp] theorem setNode_freed {i : ℕ} {node : Node α} : (s.setNode i node).freed = s.freed := rfl
@[simp] theorem setNode_takenCount {i : ℕ} {node : Node α} : (s.setNode i node).takenCount = s.takenCount := rfl

theorem Knows.mono {s' : MpscQueue α} {x : Consumer α} (h : s.Knows x)
    (hPublished : ∀ pos, s.Published pos → s'.Published pos) (htail : s'.tail = s.tail) : s'.Knows x := by
  cases x with
  | checking tail => exact h.trans htail.symm
  | taking tail => exact ⟨h.1.trans htail.symm, hPublished _ h.2⟩
  | clearing tail data => exact ⟨h.1.trans htail.symm, hPublished _ h.2.1, h.2.2⟩
  | idle | advancing | discounting => trivial

theorem freed_le_takenCount : s.freed ≤ s.takenCount := by
  rw [freed, takenCount]
  cases s.consumer <;> simp

theorem Inv.takenCount_le (h : Inv c s) : s.takenCount ≤ s.head := by
  have hfreed := h.freed
  have hknows := h.consumer
  rw [MpscQueue.freed] at hfreed
  rw [takenCount]
  cases hc : s.consumer with
  | clearing tail data =>
    rw [hc] at hknows
    obtain ⟨rfl, ⟨-, hlt, -⟩, -⟩ := hknows
    exact hlt
  | idle | checking | taking | advancing | discounting => simpa [hc] using hfreed

theorem Inv.taken_length (h : Inv c s) : s.taken.length = s.takenCount := by
  rw [h.taken, List.length_take, ← h.head]
  exact min_eq_left h.takenCount_le

theorem Inv.popped_prefix (h : Inv c s) : s.popped ++ s.consumer.hand <+: s.claimed := by
  rw [← MpscQueue.taken, h.taken]
  exact List.take_prefix _ _

theorem Inv.popped_le (h : Inv c s) : s.popped.length ≤ s.claimed.length :=
  ((List.prefix_append _ _).trans h.popped_prefix).length_le

theorem Inv.drop_popped (h : Inv c s) {item : α} (hcons : s.consumer = .discounting item) :
    s.claimed.drop s.popped.length = item :: s.claimed.drop (s.popped ++ [item]).length := by
  have hprefix : s.popped ++ [item] <+: s.claimed := by simpa [hcons, Consumer.hand] using h.popped_prefix
  obtain ⟨rest, hrest⟩ := hprefix
  rw [← hrest, List.drop_left, List.append_assoc, List.drop_left]
  rfl

variable {pos : ℕ}

theorem Inv.published_of_returned (h : Inv c s) (hpos : pos ∈ s.returned) (hfreed : s.freed ≤ pos) : s.Published pos := by
  refine ⟨hfreed, h.returned pos hpos, ?_⟩
  rintro ⟨p, hp⟩
  refine (h.positions p pos ?_).2 hpos
  cases hprod : s.producers p with
  | owning stage item pos' =>
    rw [hprod] at hp
    exact hp
  | idle | loading | claiming | counting => simp [hprod, Producer.owned] at hp

theorem Producer.owned_position {x : Producer α} (h : x.owned = some pos) : x.position = some pos := by
  cases x with
  | owning stage item pos' => exact h
  | idle | loading | claiming | counting => cases h

/-! ## Steps of a producer that claim and fill nothing -/

section SetProducer

variable {next : Producer α}

theorem setProducer_position (h : next.position = (s.producers p).position) (q : ℕ) :
    ((s.setProducer p next).producers q).position = (s.producers q).position := by
  by_cases hq : q = p
  · subst hq
    simp [setProducer, h]
  · simp [setProducer, Function.update_of_ne hq]

theorem setProducer_owned (h : next.owned = (s.producers p).owned) (q : ℕ) :
    ((s.setProducer p next).producers q).owned = (s.producers q).owned := by
  by_cases hq : q = p
  · subst hq
    simp [setProducer, h]
  · simp [setProducer, Function.update_of_ne hq]

theorem setProducer_eq (q : ℕ) (x : Producer α) (h : (s.setProducer p next).producers q = x) :
    (q = p ∧ next = x) ∨ (q ≠ p ∧ s.producers q = x) := by
  by_cases hq : q = p
  · subst hq
    exact .inl ⟨rfl, by simpa [setProducer] using h⟩
  · exact .inr ⟨hq, by simpa [setProducer, Function.update_of_ne hq] using h⟩

theorem Inv.setProducer (h : Inv c s) (hposition : next.position = (s.producers p).position)
    (howned : next.owned = (s.producers p).owned)
    (howns : ∀ stage item pos, next = .owning stage item pos → s.Owns c stage item pos) : Inv c (s.setProducer p next) := by
  have hp := setProducer_position hposition
  have ho := setProducer_owned howned
  have hOwned : ∀ pos, (s.setProducer p next).Owned pos ↔ s.Owned pos := fun pos => by simp only [Owned, ho]
  have hPublished : ∀ pos, (s.setProducer p next).Published pos ↔ s.Published pos := fun pos => by
    simp only [Published, hOwned, setProducer_freed, setProducer_head]
  refine ⟨h.head, h.freed, ?_, ?_, ?_, ?_, ?_, ?_, h.taken, ?_, h.returned, h.nodup, ?_⟩
  · simpa only [hp, setProducer_head, setProducer_returned] using h.positions
  · simpa only [hp] using h.unique
  · simpa only [ho] using h.slots
  · intro q stage item pos hq
    rcases setProducer_eq q _ hq with ⟨-, hnext⟩ | ⟨-, hq⟩
    · exact ⟨(howns _ _ _ hnext).live, (howns _ _ _ hnext).content, (howns _ _ _ hnext).cleared, (howns _ _ _ hnext).stored⟩
    · exact ⟨(h.owns _ _ _ _ hq).live, (h.owns _ _ _ _ hq).content, (h.owns _ _ _ _ hq).cleared, (h.owns _ _ _ _ hq).stored⟩
  · simpa only [hPublished, setProducer_buffer, setProducer_claimed, setProducer_freed, setProducer_takenCount] using h.published
  · simpa only [hPublished, setProducer_buffer] using h.ready
  · exact h.consumer.mono (fun pos hpos => (hPublished pos).mpr hpos) rfl
  · simpa only [hp, setProducer_head, setProducer_returned] using h.accounted

end SetProducer

/-! ## Claiming, filling and counting -/

@[simp] theorem setProducer_self {next : Producer α} : (s.setProducer p next).producers p = next := by
  simp [setProducer]

theorem setProducer_ne {next : Producer α} {q : ℕ} (hq : q ≠ p) : (s.setProducer p next).producers q = s.producers q := by
  simp [setProducer, Function.update_of_ne hq]

variable {item : α}

theorem Inv.claim (h : Inv c s) (hprod : s.producers p = .claiming item)
    (hsafe : ∀ q pos, (s.producers q).owned = some pos → c.index pos ≠ c.index s.head) :
    Inv c { s.setProducer p (.owning .waiting item s.head) with head := s.head + 1, claimed := s.claimed ++ [item] } := by
  set s' : MpscQueue α :=
    { s.setProducer p (.owning .waiting item s.head) with head := s.head + 1, claimed := s.claimed ++ [item] } with hs'
  have hself : s'.producers p = .owning .waiting item s.head := setProducer_self
  have hother : ∀ q, q ≠ p → s'.producers q = s.producers q := fun q hq => setProducer_ne hq
  have hcontent : ∀ pos, pos < s.head → s'.claimed[pos]? = s.claimed[pos]? := fun pos hpos =>
    List.getElem?_append_left (h.head ▸ hpos)
  have howned : ∀ q pos, (s'.producers q).owned = some pos →
      (q = p ∧ pos = s.head) ∨ (q ≠ p ∧ (s.producers q).owned = some pos) := by
    intro q pos hq
    by_cases hqp : q = p
    · subst hqp
      rw [hself] at hq
      exact .inl ⟨rfl, (Option.some.inj hq).symm⟩
    · rw [hother q hqp] at hq
      exact .inr ⟨hqp, hq⟩
  have hposition : ∀ q pos, (s'.producers q).position = some pos →
      (q = p ∧ pos = s.head) ∨ (q ≠ p ∧ (s.producers q).position = some pos) := by
    intro q pos hq
    by_cases hqp : q = p
    · subst hqp
      rw [hself] at hq
      exact .inl ⟨rfl, (Option.some.inj hq).symm⟩
    · rw [hother q hqp] at hq
      exact .inr ⟨hqp, hq⟩
  have hlt : ∀ q pos, (s.producers q).position = some pos → pos < s.head := fun q pos hq => (h.positions q pos hq).1
  have hkept : ∀ q pos, (s.producers q).owned = some pos → (s'.producers q).owned = some pos := by
    intro q pos hq
    rw [hother q]
    · exact hq
    · rintro rfl
      rw [hprod] at hq
      cases hq
  have hPublished : ∀ pos, s'.Published pos ↔ s.Published pos := by
    intro pos
    constructor
    · rintro ⟨hfreed, hpos, hnot⟩
      have hne : pos ≠ s.head := by
        rintro rfl
        exact hnot ⟨p, by rw [hself]; rfl⟩
      refine ⟨hfreed, ?_, fun ⟨q, hq⟩ => hnot ⟨q, hkept q pos hq⟩⟩
      have hpos : pos < s.head + 1 := hpos
      omega
    · rintro ⟨hfreed, hpos, hnot⟩
      refine ⟨hfreed, Nat.lt_succ_of_lt hpos, ?_⟩
      rintro ⟨q, hq⟩
      rcases howned q pos hq with ⟨-, rfl⟩ | ⟨-, hq⟩
      · exact absurd hpos (lt_irrefl _)
      exact hnot ⟨q, hq⟩
  refine
    { head := ?_
      freed := Nat.le_succ_of_le h.freed
      positions := ?_
      unique := ?_
      slots := ?_
      owns := ?_
      published := ?_
      ready := ?_
      taken := ?_
      consumer := ?_
      returned := fun pos hpos => Nat.lt_succ_of_lt (h.returned pos hpos)
      nodup := h.nodup
      accounted := ?_ }
  · simp [hs', h.head]
  · intro q pos hq
    rcases hposition q pos hq with ⟨-, rfl⟩ | ⟨-, hq⟩
    · exact ⟨Nat.lt_succ_self _, fun hmem => absurd (h.returned _ hmem) (lt_irrefl _)⟩
    · exact ⟨Nat.lt_succ_of_lt (hlt q pos hq), (h.positions q pos hq).2⟩
  · intro q q' pos hq hq'
    rcases hposition q pos hq with ⟨rfl, rfl⟩ | ⟨-, hq⟩
    · rcases hposition q' _ hq' with ⟨rfl, -⟩ | ⟨-, hq'⟩
      · rfl
      · exact absurd (hlt q' _ hq') (lt_irrefl _)
    · rcases hposition q' pos hq' with ⟨-, rfl⟩ | ⟨-, hq'⟩
      · exact absurd (hlt q _ hq) (lt_irrefl _)
      exact h.unique q q' pos hq hq'
  · intro q q' pos pos' hq hq' hindex
    rcases howned q pos hq with ⟨rfl, rfl⟩ | ⟨-, hq⟩
    · rcases howned q' pos' hq' with ⟨rfl, -⟩ | ⟨-, hq'⟩
      · rfl
      · exact absurd hindex.symm (hsafe q' pos' hq')
    · rcases howned q' pos' hq' with ⟨-, rfl⟩ | ⟨-, hq'⟩
      · exact absurd hindex (hsafe q pos hq)
      exact h.slots q q' pos pos' hq hq' hindex
  · intro q stage item' pos hq
    by_cases hqp : q = p
    · subst hqp
      rw [hself] at hq
      cases hq
      refine ⟨h.freed, ?_, fun hne => absurd rfl hne, fun heq => by cases heq⟩
      simp [hs', h.head]
    · rw [hother q hqp] at hq
      have hq' := h.owns q stage item' pos hq
      refine ⟨hq'.live, ?_, hq'.cleared, hq'.stored⟩
      rw [hcontent pos (hlt q pos (by rw [hq]; rfl))]
      exact hq'.content
  · intro pos hpos
    rw [hPublished] at hpos
    rw [hcontent pos hpos.2.1]
    exact h.published pos hpos
  · intro i hi
    obtain ⟨pos, hpos, hindex⟩ := h.ready i hi
    exact ⟨pos, (hPublished pos).mpr hpos, hindex⟩
  · show s.taken = (s.claimed ++ [item]).take s.takenCount
    rw [List.take_append_of_le_length (h.head ▸ h.takenCount_le)]
    exact h.taken
  · exact h.consumer.mono (fun pos hpos => (hPublished pos).mpr hpos) rfl
  · intro pos hpos
    by_cases hlast : pos = s.head
    · subst hlast
      exact .inr ⟨p, by rw [hself]; rfl⟩
    · have hpos : pos < s.head + 1 := hpos
      rcases h.accounted pos (by omega) with hmem | ⟨q, hq⟩
      · exact .inl hmem
      · refine .inr ⟨q, ?_⟩
        rw [hother q]
        · exact hq
        · rintro rfl
          rw [hprod] at hq
          cases hq

@[simp] theorem setNode_self {i : ℕ} {node : Node α} : (s.setNode i node).buffer i = node := by
  simp [setNode]

theorem setNode_ne {i j : ℕ} {node : Node α} (hj : j ≠ i) : (s.setNode i node).buffer j = s.buffer j := by
  simp [setNode, Function.update_of_ne hj]

theorem setNode_data_ready {i j : ℕ} {data : Option α} :
    ((s.setNode i { s.buffer i with data := data }).buffer j).ready = (s.buffer j).ready := by
  by_cases hj : j = i
  · subst hj
    simp
  · rw [setNode_ne hj]

theorem Inv.setData (h : Inv c s) (hprod : s.producers p = .owning .storing item pos) :
    Inv c (s.setNode (c.index pos) { s.buffer (c.index pos) with data := some item }) := by
  have hcleared : (s.buffer (c.index pos)).ready = false := (h.owns p _ _ _ hprod).cleared (by decide)
  refine
    { head := h.head
      freed := h.freed
      positions := h.positions
      unique := h.unique
      slots := h.slots
      owns := ?_
      published := ?_
      ready := ?_
      taken := h.taken
      consumer := h.consumer.mono (fun _ hpos => hpos) rfl
      returned := h.returned
      nodup := h.nodup
      accounted := h.accounted }
  · intro q stage item' pos' hq
    rw [setNode_producers] at hq
    have howns := h.owns q stage item' pos' hq
    refine ⟨howns.live, howns.content, fun hne => ?_, fun hpub => ?_⟩
    · rw [setNode_data_ready]
      exact howns.cleared hne
    · subst hpub
      rw [setNode_ne]
      · exact howns.stored rfl
      · intro hindex
        have hqp : q = p := h.slots q p pos' pos (by rw [hq]; rfl) (by rw [hprod]; rfl) hindex
        rw [hqp, hprod] at hq
        cases hq
  · intro pos' hpos'
    obtain ⟨hready, hlap, hdata⟩ := h.published pos' hpos'
    have hne : c.index pos' ≠ c.index pos := by
      intro heq
      rw [heq, hcleared] at hready
      cases hready
    rw [setNode_ne hne]
    exact ⟨hready, hlap, hdata⟩
  · intro i hi
    rw [setNode_data_ready] at hi
    exact h.ready i hi

theorem Inv.store (h : Inv c s) (hprod : s.producers p = .owning .storing item pos) :
    Inv c ((s.setNode (c.index pos) { s.buffer (c.index pos) with data := some item }).setProducer p
      (.owning .publishing item pos)) := by
  have howns := h.owns p _ _ _ hprod
  refine (h.setData hprod).setProducer (by rw [setNode_producers, hprod]; rfl) (by rw [setNode_producers, hprod]; rfl) ?_
  intro stage item' pos' heq
  cases heq
  refine ⟨howns.live, howns.content, fun _ => ?_, fun _ => ?_⟩
  · rw [setNode_data_ready]
    exact howns.cleared (by decide)
  · rw [setNode_self]

/-- A position that is filled lies less than a lap ahead of the consumer: a lap back is a position with the same slot,
which would have to be owned or ready. -/
theorem Inv.lap (h : Inv c s) {stage : Stage} (hprod : s.producers p = .owning stage item pos)
    (hstage : stage ≠ .waiting) : pos < s.freed + c.value := by
  have hcleared : (s.buffer (c.index pos)).ready = false := (h.owns p _ _ _ hprod).cleared hstage
  have hlt : pos < s.head := (h.positions p pos (by rw [hprod]; rfl)).1
  by_contra hge
  have hindex : c.index (pos - c.value) = c.index pos := Capacity.index_sub (by omega)
  by_cases howned : s.Owned (pos - c.value)
  · obtain ⟨q, hq⟩ := howned
    have hqp : q = p := h.slots q p _ _ hq (by rw [hprod]; rfl) hindex
    rw [hqp, hprod] at hq
    have heq : pos = pos - c.value := Option.some.inj hq
    have := c.pos
    omega
  · have hready := (h.published (pos - c.value) ⟨by omega, by omega, howned⟩).1
    rw [hindex, hcleared] at hready
    cases hready

theorem Inv.publish (h : Inv c s) (hprod : s.producers p = .owning .publishing item pos) :
    Inv c ((s.setNode (c.index pos) { s.buffer (c.index pos) with ready := true }).setProducer p (.counting pos)) := by
  have howns := h.owns p _ _ _ hprod
  have hpos := h.positions p pos (by rw [hprod]; rfl)
  have hcleared : (s.buffer (c.index pos)).ready = false := howns.cleared (by decide)
  set s' := (s.setNode (c.index pos) { s.buffer (c.index pos) with ready := true }).setProducer p (.counting pos) with hs'
  have hself : s'.producers p = .counting pos := setProducer_self
  have hother : ∀ q, q ≠ p → s'.producers q = s.producers q := fun q hq => setProducer_ne hq
  have hposition : ∀ q, (s'.producers q).position = (s.producers q).position := by
    intro q
    by_cases hq : q = p
    · subst hq
      rw [hself, hprod]
      rfl
    · rw [hother q hq]
  have howned : ∀ q pos', (s'.producers q).owned = some pos' → q ≠ p ∧ (s.producers q).owned = some pos' := by
    intro q pos' hq
    by_cases hqp : q = p
    · subst hqp
      rw [hself] at hq
      cases hq
    · rw [hother q hqp] at hq
      exact ⟨hqp, hq⟩
  have hslot : ∀ q pos', q ≠ p → (s.producers q).owned = some pos' → c.index pos' ≠ c.index pos := by
    intro q pos' hq hq' hindex
    exact hq (h.slots q p pos' pos hq' (by rw [hprod]; rfl) hindex)
  have hnode : ∀ pos', c.index pos' ≠ c.index pos → s'.buffer (c.index pos') = s.buffer (c.index pos') := fun pos' hne =>
    setNode_ne hne
  have hfilled : s'.buffer (c.index pos) = { s.buffer (c.index pos) with ready := true } := setNode_self
  have hPublished : ∀ pos', s'.Published pos' ↔ s.Published pos' ∨ pos' = pos := by
    intro pos'
    constructor
    · rintro ⟨hfreed, hlt, hnot⟩
      by_cases heq : pos' = pos
      · exact .inr heq
      · refine .inl ⟨hfreed, hlt, ?_⟩
        rintro ⟨q, hq⟩
        refine hnot ⟨q, ?_⟩
        rw [hother q]
        · exact hq
        · rintro rfl
          rw [hprod] at hq
          exact heq (Option.some.inj hq).symm
    · rintro (⟨hfreed, hlt, hnot⟩ | rfl)
      · exact ⟨hfreed, hlt, fun ⟨q, hq⟩ => hnot ⟨q, (howned q pos' hq).2⟩⟩
      · refine ⟨howns.live, hpos.1, ?_⟩
        rintro ⟨q, hq⟩
        obtain ⟨hqp, hq⟩ := howned q _ hq
        exact hslot q _ hqp hq rfl
  have hne : ∀ pos', s.Published pos' → c.index pos' ≠ c.index pos := by
    intro pos' hpos' heq
    have hready := (h.published pos' hpos').1
    rw [heq, hcleared] at hready
    cases hready
  refine
    { head := h.head
      freed := h.freed
      positions := fun q pos' hq => h.positions q pos' (by rw [← hposition q]; exact hq)
      unique := fun q q' pos' hq hq' => h.unique q q' pos' (by rw [← hposition q]; exact hq) (by rw [← hposition q']; exact hq')
      slots := fun q q' pos' pos'' hq hq' => h.slots q q' pos' pos'' (howned q pos' hq).2 (howned q' pos'' hq').2
      owns := ?_
      published := ?_
      ready := ?_
      taken := h.taken
      consumer := ?_
      returned := h.returned
      nodup := h.nodup
      accounted := ?_ }
  · intro q stage item' pos' hq
    have hqp : q ≠ p := by
      rintro rfl
      rw [hself] at hq
      cases hq
    rw [hother q hqp] at hq
    have howns' := h.owns q stage item' pos' hq
    have hbuffer := hnode pos' (hslot q pos' hqp (by rw [hq]; rfl))
    refine ⟨howns'.live, howns'.content, ?_, ?_⟩
    · rw [hbuffer]
      exact howns'.cleared
    · rw [hbuffer]
      exact howns'.stored
  · intro pos' hpos'
    rcases (hPublished pos').mp hpos' with hold | rfl
    · rw [hnode pos' (hne pos' hold)]
      exact h.published pos' hold
    · rw [hfilled]
      exact ⟨rfl, h.lap hprod (by decide), fun _ => (howns.stored rfl).trans howns.content.symm⟩
  · intro i hi
    by_cases heq : i = c.index pos
    · exact ⟨pos, (hPublished pos).mpr (.inr rfl), heq.symm⟩
    · have hi : (s.buffer i).ready = true := by
        rw [← hi]
        exact congrArg Node.ready (setNode_ne heq).symm
      obtain ⟨pos', hpos', hindex⟩ := h.ready i hi
      exact ⟨pos', (hPublished pos').mpr (.inl hpos'), hindex⟩
  · exact h.consumer.mono (fun pos' hpos' => (hPublished pos').mpr (.inl hpos')) rfl
  · intro pos' hlt
    rcases h.accounted pos' hlt with hmem | ⟨q, hq⟩
    · exact .inl hmem
    · exact .inr ⟨q, by rw [hposition q]; exact hq⟩

theorem Inv.size_lt (h : Inv c s) : s.returned.length < s.popped.length + c.value + 2 := by
  have hsub : s.returned ⊆ List.range (s.freed + c.value) := by
    intro pos hpos
    rw [List.mem_range]
    rcases Nat.lt_or_ge pos s.freed with hlt | hge
    · omega
    · exact (h.published pos (h.published_of_returned hpos hge)).2.1
  have hlength := (h.nodup.subperm hsub).length_le
  rw [List.length_range] at hlength
  have hhand : s.consumer.hand.length ≤ 1 := by
    cases s.consumer with
    | clearing tail data => cases data <;> simp [Consumer.hand]
    | idle | checking | taking | advancing | discounting => simp [Consumer.hand]
  have htaken := h.taken_length
  rw [MpscQueue.taken, List.length_append] at htaken
  have := freed_le_takenCount (s := s)
  omega

theorem Inv.count (h : Inv c s) (hprod : s.producers p = .counting pos) :
    Inv c { s.setProducer p .idle with size := s.size + 1, returned := s.returned ++ [pos] } := by
  have hpos := h.positions p pos (by rw [hprod]; rfl)
  set s' : MpscQueue α :=
    { s.setProducer p .idle with size := s.size + 1, returned := s.returned ++ [pos] } with hs'
  have hself : s'.producers p = .idle := setProducer_self
  have hother : ∀ q, q ≠ p → s'.producers q = s.producers q := fun q hq => setProducer_ne hq
  have hposition : ∀ q pos', (s'.producers q).position = some pos' → q ≠ p ∧ (s.producers q).position = some pos' := by
    intro q pos' hq
    by_cases hqp : q = p
    · subst hqp
      rw [hself] at hq
      cases hq
    · rw [hother q hqp] at hq
      exact ⟨hqp, hq⟩
  have howned : ∀ q, (s'.producers q).owned = (s.producers q).owned := setProducer_owned (by rw [hprod]; rfl)
  have hOwned : ∀ pos', s'.Owned pos' ↔ s.Owned pos' := fun pos' => by simp only [Owned, howned]
  have hPublished : ∀ pos', s'.Published pos' ↔ s.Published pos' := fun pos' => by
    rw [Published, hOwned]
    exact Iff.rfl
  refine
    { head := h.head
      freed := h.freed
      positions := ?_
      unique := fun q q' pos' hq hq' => h.unique q q' pos' (hposition q pos' hq).2 (hposition q' pos' hq').2
      slots := by simpa only [howned] using h.slots
      owns := ?_
      published := fun pos' hpos' => h.published pos' ((hPublished pos').mp hpos')
      ready := ?_
      taken := h.taken
      consumer := h.consumer.mono (fun pos' hpos' => (hPublished pos').mpr hpos') rfl
      returned := ?_
      nodup := ?_
      accounted := ?_ }
  · intro q pos' hq
    obtain ⟨hqp, hq⟩ := hposition q pos' hq
    refine ⟨(h.positions q pos' hq).1, ?_⟩
    intro hmem
    rcases List.mem_append.mp hmem with hmem | hmem
    · exact (h.positions q pos' hq).2 hmem
    · rw [List.mem_singleton.mp hmem] at hq
      exact hqp (h.unique q p pos hq (by rw [hprod]; rfl))
  · intro q stage item pos' hq
    have hqp : q ≠ p := by
      rintro rfl
      rw [hself] at hq
      cases hq
    rw [hother q hqp] at hq
    have howns := h.owns q stage item pos' hq
    exact ⟨howns.live, howns.content, howns.cleared, howns.stored⟩
  · intro i hi
    obtain ⟨pos', hpos', hindex⟩ := h.ready i hi
    exact ⟨pos', (hPublished pos').mpr hpos', hindex⟩
  · intro pos' hmem
    rcases List.mem_append.mp hmem with hmem | hmem
    · exact h.returned pos' hmem
    · rw [List.mem_singleton.mp hmem]
      exact hpos.1
  · exact List.nodup_append.mpr ⟨h.nodup, List.nodup_singleton pos, by
      intro a ha b hb
      rw [List.mem_singleton.mp hb]
      rintro rfl
      exact hpos.2 ha⟩
  · intro pos' hlt
    rcases h.accounted pos' hlt with hmem | ⟨q, hq⟩
    · exact .inl (List.mem_append_left _ hmem)
    · by_cases hqp : q = p
      · rw [hqp, hprod] at hq
        rw [← Option.some.inj hq]
        exact .inl (List.mem_append_right _ (List.mem_singleton.mpr rfl))
      · refine .inr ⟨q, ?_⟩
        rw [hother q hqp]
        exact hq

/-! ## Steps of the consumer -/

variable {tail : ℕ}

theorem Inv.setConsumer (h : Inv c s) {x : Consumer α}
    (hfreed : { s with consumer := x, tail := tail }.freed = s.freed)
    (htaken : { s with consumer := x, tail := tail }.takenCount = s.takenCount) (hhand : x.hand = s.consumer.hand)
    (hknows : { s with consumer := x, tail := tail }.Knows x) : Inv c { s with consumer := x, tail := tail } := by
  set s' : MpscQueue α := { s with consumer := x, tail := tail } with hs'
  have hPublished : ∀ pos, s'.Published pos ↔ s.Published pos := fun pos => by
    rw [Published, hfreed]
    exact Iff.rfl
  refine
    { head := h.head
      freed := hfreed ▸ h.freed
      positions := h.positions
      unique := h.unique
      slots := h.slots
      owns := ?_
      published := ?_
      ready := ?_
      taken := ?_
      consumer := hknows
      returned := h.returned
      nodup := h.nodup
      accounted := h.accounted }
  · intro q stage item pos hq
    have howns := h.owns q stage item pos hq
    exact ⟨hfreed ▸ howns.live, howns.content, howns.cleared, howns.stored⟩
  · intro pos hpos
    rw [hfreed, htaken]
    exact h.published pos ((hPublished pos).mp hpos)
  · intro i hi
    obtain ⟨pos, hpos, hindex⟩ := h.ready i hi
    exact ⟨pos, (hPublished pos).mpr hpos, hindex⟩
  · rw [htaken]
    show s.popped ++ x.hand = _
    rw [hhand]
    exact h.taken

theorem Inv.published_tail (h : Inv c s) (hfreed : s.freed = s.tail) (hready : (s.buffer (c.index s.tail)).ready = true) :
    s.Published s.tail := by
  obtain ⟨pos, hpos, hindex⟩ := h.ready _ hready
  have hle : s.tail ≤ pos := hfreed ▸ hpos.1
  have hlap : pos < s.tail + c.value := hfreed ▸ (h.published pos hpos).2.1
  rw [Capacity.index_inj hle hlap hindex.symm]
  exact hpos

theorem Inv.take (h : Inv c s) (hcons : s.consumer = .taking tail) :
    Inv c { s.setNode (c.index tail) { s.buffer (c.index tail) with data := none } with
      consumer := .clearing tail (s.buffer (c.index tail)).data } := by
  have hknows := h.consumer
  rw [hcons] at hknows
  obtain ⟨rfl, hpub⟩ := hknows
  have hfreed : s.freed = s.tail := by rw [MpscQueue.freed, hcons]
  have htaken : s.takenCount = s.tail := by rw [MpscQueue.takenCount, hcons]
  obtain ⟨hready, -, hdata⟩ := h.published _ hpub
  have hdata := hdata htaken.le
  have hlt : s.tail < s.claimed.length := h.head ▸ hpub.2.1
  rw [List.getElem?_eq_getElem hlt] at hdata
  set s' : MpscQueue α := { s.setNode (c.index s.tail) { s.buffer (c.index s.tail) with data := none } with
    consumer := .clearing s.tail (s.buffer (c.index s.tail)).data } with hs'
  have hfreed' : s'.freed = s.freed := hfreed.symm
  have htaken' : s'.takenCount = s.tail + 1 := rfl
  have hkeeps : ∀ i, (s'.buffer i).ready = (s.buffer i).ready := fun i => setNode_data_ready
  have hPublished : ∀ pos, s'.Published pos ↔ s.Published pos := fun pos => by
    rw [Published, hfreed']
    exact Iff.rfl
  refine
    { head := h.head
      freed := hfreed' ▸ h.freed
      positions := h.positions
      unique := h.unique
      slots := h.slots
      owns := ?_
      published := ?_
      ready := ?_
      taken := ?_
      consumer := ⟨rfl, (hPublished _).mpr hpub, _, hdata⟩
      returned := h.returned
      nodup := h.nodup
      accounted := h.accounted }
  · intro q stage item pos hq
    have howns := h.owns q stage item pos hq
    refine ⟨hfreed' ▸ howns.live, howns.content, ?_, fun hstage => ?_⟩
    · rw [hkeeps]
      exact howns.cleared
    · rw [← howns.stored hstage]
      have hne : c.index pos ≠ c.index s.tail := by
        intro heq
        have hcleared := howns.cleared (by rw [hstage]; decide)
        rw [heq, hready] at hcleared
        cases hcleared
      exact congrArg Node.data (setNode_ne hne)
  · intro pos hpos
    rw [hPublished] at hpos
    obtain ⟨hready', hlap, hdata'⟩ := h.published pos hpos
    refine ⟨(hkeeps _).trans hready', hfreed' ▸ hlap, fun hle => ?_⟩
    rw [htaken'] at hle
    rw [htaken] at hdata'
    have hne : c.index pos ≠ c.index s.tail := by
      intro heq
      have := Capacity.index_inj (by omega) (by omega) heq.symm
      omega
    exact (congrArg Node.data (setNode_ne hne)).trans (hdata' (by omega))
  · intro i hi
    rw [hkeeps] at hi
    obtain ⟨pos, hpos, hindex⟩ := h.ready i hi
    exact ⟨pos, (hPublished pos).mpr hpos, hindex⟩
  · have hprev := h.taken
    rw [htaken, MpscQueue.taken, hcons] at hprev
    show s.popped ++ (s.buffer (c.index s.tail)).data.toList = s.claimed.take (s.tail + 1)
    rw [hdata, List.take_add_one, List.getElem?_eq_getElem hlt, ← hprev]
    simp [Consumer.hand]

theorem Inv.clear (h : Inv c s) (hcons : s.consumer = .clearing tail (some item)) :
    Inv c { s.setNode (c.index tail) { s.buffer (c.index tail) with ready := false } with
      consumer := .advancing item } := by
  have hknows := h.consumer
  rw [hcons] at hknows
  obtain ⟨rfl, hpub, -⟩ := hknows
  have hfreed : s.freed = s.tail := by rw [MpscQueue.freed, hcons]
  have htaken : s.takenCount = s.tail + 1 := by rw [MpscQueue.takenCount, hcons]
  set s' : MpscQueue α := { s.setNode (c.index s.tail) { s.buffer (c.index s.tail) with ready := false } with
    consumer := .advancing item } with hs'
  have hfreed' : s'.freed = s.tail + 1 := rfl
  have htaken' : s'.takenCount = s.takenCount := htaken.symm
  have hnode : ∀ i, i ≠ c.index s.tail → s'.buffer i = s.buffer i := fun i hi => setNode_ne hi
  have hempty : s'.buffer (c.index s.tail) = { s.buffer (c.index s.tail) with ready := false } := setNode_self
  have hPublished : ∀ pos, s'.Published pos ↔ s.Published pos ∧ pos ≠ s.tail := by
    intro pos
    rw [Published, Published, hfreed', hfreed]
    constructor
    · rintro ⟨hle, hlt, hnot⟩
      exact ⟨⟨by omega, hlt, hnot⟩, by omega⟩
    · rintro ⟨⟨hle, hlt, hnot⟩, hne⟩
      exact ⟨by omega, hlt, hnot⟩
  refine
    { head := h.head
      freed := hpub.2.1
      positions := h.positions
      unique := h.unique
      slots := h.slots
      owns := ?_
      published := ?_
      ready := ?_
      taken := ?_
      consumer := trivial
      returned := h.returned
      nodup := h.nodup
      accounted := h.accounted }
  · intro q stage item' pos hq
    have howns := h.owns q stage item' pos hq
    have hlive := howns.live
    have hne : pos ≠ s.tail := by
      rintro rfl
      exact hpub.2.2 ⟨q, congrArg Producer.owned hq⟩
    refine ⟨by rw [hfreed']; omega, howns.content, fun hstage => ?_, fun hstage => ?_⟩
    · by_cases heq : c.index pos = c.index s.tail
      · rw [heq, hempty]
      · rw [hnode _ heq]
        exact howns.cleared hstage
    · rw [← howns.stored hstage]
      by_cases heq : c.index pos = c.index s.tail
      · rw [heq, hempty]
      · rw [hnode _ heq]
  · intro pos hpos
    obtain ⟨hold, hne⟩ := (hPublished pos).mp hpos
    obtain ⟨hready, hlap, hdata⟩ := h.published pos hold
    have hle := hold.1
    have hslot : c.index pos ≠ c.index s.tail := by
      intro heq
      have := Capacity.index_inj (by omega) (by omega) heq.symm
      omega
    rw [hnode _ hslot, htaken', hfreed']
    exact ⟨hready, by omega, hdata⟩
  · intro i hi
    have hslot : i ≠ c.index s.tail := by
      rintro rfl
      rw [hempty] at hi
      cases hi
    rw [hnode i hslot] at hi
    obtain ⟨pos, hpos, hindex⟩ := h.ready i hi
    refine ⟨pos, (hPublished pos).mpr ⟨hpos, ?_⟩, hindex⟩
    rintro rfl
    exact hslot hindex.symm
  · have hprev := h.taken
    rw [MpscQueue.taken, hcons] at hprev
    rw [htaken']
    exact hprev

theorem Inv.discount (h : Inv c s) (hcons : s.consumer = .discounting item) :
    Inv c { s with size := s.size - 1, consumer := .idle, popped := s.popped ++ [item] } := by
  have hfreed : s.freed = s.tail := by rw [MpscQueue.freed, hcons]
  have htaken : s.takenCount = s.tail := by rw [MpscQueue.takenCount, hcons]
  set s' : MpscQueue α := { s with size := s.size - 1, consumer := .idle, popped := s.popped ++ [item] } with hs'
  have hfreed' : s'.freed = s.freed := hfreed.symm
  have htaken' : s'.takenCount = s.takenCount := htaken.symm
  have hPublished : ∀ pos, s'.Published pos ↔ s.Published pos := fun pos => by
    rw [Published, hfreed']
    exact Iff.rfl
  refine
    { head := h.head
      freed := hfreed' ▸ h.freed
      positions := h.positions
      unique := h.unique
      slots := h.slots
      owns := ?_
      published := ?_
      ready := ?_
      taken := ?_
      consumer := trivial
      returned := h.returned
      nodup := h.nodup
      accounted := h.accounted }
  · intro q stage item' pos hq
    have howns := h.owns q stage item' pos hq
    exact ⟨hfreed' ▸ howns.live, howns.content, howns.cleared, howns.stored⟩
  · intro pos hpos
    rw [hfreed', htaken']
    exact h.published pos ((hPublished pos).mp hpos)
  · intro i hi
    obtain ⟨pos, hpos, hindex⟩ := h.ready i hi
    exact ⟨pos, (hPublished pos).mpr hpos, hindex⟩
  · have hprev := h.taken
    rw [htaken, MpscQueue.taken, hcons] at hprev
    show (s.popped ++ [item]) ++ [] = s.claimed.take s.tail
    rw [List.append_nil]
    exact hprev

/-! ## Every step -/

variable (c) in
theorem Inv.start : Inv c ({} : MpscQueue α) where
  head := rfl
  freed := le_refl 0
  positions p pos h := by cases h
  unique p q pos h := by cases h
  slots p q pos pos' h := by cases h
  owns p stage item pos h := by cases h
  published pos h := absurd h.2.1 (Nat.not_lt_zero pos)
  ready i h := by cases h
  taken := rfl
  consumer := trivial
  returned pos h := by cases h
  nodup := List.nodup_nil
  accounted pos h := absurd h (Nat.not_lt_zero pos)

theorem Inv.pushStep (h : Inv c s) (hsafe : Claims c s (.producer p)) : Inv c (s.pushStep c p) := by
  rw [MpscQueue.pushStep]
  cases hprod : s.producers p with
  | idle => exact h
  | loading item =>
    dsimp only
    by_cases hfull : c.value ≤ s.size.toNat
    · rw [if_pos hfull]
      exact h.setProducer (by rw [hprod]; rfl) (by rw [hprod]; rfl) (fun _ _ _ heq => by cases heq)
    · rw [if_neg hfull]
      exact h.setProducer (by rw [hprod]; rfl) (by rw [hprod]; rfl) (fun _ _ _ heq => by cases heq)
  | claiming item => exact h.claim hprod (hsafe item hprod)
  | owning stage item pos =>
    have howns := h.owns p stage item pos hprod
    cases stage with
    | waiting =>
      dsimp only
      by_cases hready : (s.buffer (c.index pos)).ready = true
      · rw [if_pos hready]
        exact h
      · rw [if_neg hready]
        refine h.setProducer (by rw [hprod]; rfl) (by rw [hprod]; rfl) ?_
        intro stage item' pos' heq
        cases heq
        exact ⟨howns.live, howns.content, fun _ => Bool.not_eq_true _ ▸ hready, fun heq => by cases heq⟩
    | storing => exact h.store hprod
    | publishing => exact h.publish hprod
  | counting pos => exact h.count hprod

theorem Inv.popStep (h : Inv c s) : Inv c (s.popStep c) := by
  have hknows := h.consumer
  rw [MpscQueue.popStep]
  cases hcons : s.consumer with
  | idle =>
    refine h.setConsumer ?_ ?_ ?_ rfl
    · rw [MpscQueue.freed, MpscQueue.freed, hcons]
    · rw [MpscQueue.takenCount, MpscQueue.takenCount, hcons]
    · rw [hcons]
      rfl
  | checking tail =>
    rw [hcons] at hknows
    have htail : tail = s.tail := hknows
    subst htail
    have hfreed : s.freed = s.tail := by rw [MpscQueue.freed, hcons]
    have htaken : s.takenCount = s.tail := by rw [MpscQueue.takenCount, hcons]
    dsimp only
    by_cases hready : (s.buffer (c.index s.tail)).ready = true
    · rw [if_pos hready]
      refine h.setConsumer hfreed.symm htaken.symm (by rw [hcons]; rfl) ⟨rfl, ?_⟩
      obtain ⟨hle, hlt, hnot⟩ := h.published_tail hfreed hready
      exact ⟨le_refl _, hlt, hnot⟩
    · rw [if_neg hready]
      exact h.setConsumer hfreed.symm htaken.symm (by rw [hcons]; rfl) trivial
  | taking tail => exact h.take hcons
  | clearing tail data =>
    rw [hcons] at hknows
    obtain ⟨-, -, item, rfl⟩ := hknows
    exact h.clear hcons
  | advancing item =>
    refine h.setConsumer ?_ ?_ ?_ trivial
    · rw [MpscQueue.freed, MpscQueue.freed, hcons]
    · rw [MpscQueue.takenCount, MpscQueue.takenCount, hcons]
    · rw [hcons]
      rfl
  | discounting item => exact h.discount hcons

theorem Inv.step (h : Inv c s) (e : QueueStep α) (hsafe : Claims c s e) : Inv c (s.step c e) := by
  cases e with
  | push p item =>
    rw [MpscQueue.step]
    cases hprod : s.producers p with
    | idle => exact h.setProducer (by rw [hprod]; rfl) (by rw [hprod]; rfl) (fun _ _ _ heq => by cases heq)
    | loading | claiming | owning | counting => exact h
  | producer p => exact h.pushStep hsafe
  | consumer => exact h.popStep

/-! ## The count -/

/-- Besides, `size_` is what was pushed and not popped. -/
structure Counts (c : Capacity) (s : MpscQueue α) : Prop extends Inv c s where
  counted : s.size.toNat + s.popped.length = s.returned.length

theorem Counts.count (h : Counts c s) : (s.size + 1).toNat + s.popped.length = (s.returned ++ [pos]).length := by
  have hcounted := h.counted
  have hsize := h.size_lt
  have hvalue := c.value_le
  rw [UInt64.toNat_add, UInt64.toNat_one, Nat.mod_eq_of_lt (by omega), List.length_append, List.length_singleton]
  omega

theorem Counts.discount (h : Counts c s) (hsize : s.size ≠ 0) :
    (s.size - 1).toNat + (s.popped ++ [item]).length = s.returned.length := by
  have hcounted := h.counted
  have hpos : s.size.toNat ≠ 0 := fun hzero => hsize (UInt64.toNat_inj.mp hzero)
  have hone : (1 : UInt64) ≤ s.size := UInt64.le_iff_toNat_le.mpr (Nat.one_le_iff_ne_zero.mpr hpos)
  rw [UInt64.toNat_sub_of_le _ _ hone, UInt64.toNat_one, List.length_append, List.length_singleton]
  omega

theorem Counts.step (h : Counts c s) (e : QueueStep α) (hsafe : Safe c s e) : Counts c (s.step c e) := by
  refine { h.toInv.step e hsafe.claims with counted := ?_ }
  cases e with
  | push p item =>
    rw [MpscQueue.step]
    cases s.producers p <;> exact h.counted
  | producer p =>
    rw [MpscQueue.step, MpscQueue.pushStep]
    cases hprod : s.producers p with
    | idle | loading | claiming => exact h.counted
    | owning stage item pos =>
      cases stage with
      | waiting =>
        dsimp only
        split <;> exact h.counted
      | storing | publishing => exact h.counted
    | counting pos => exact h.count
  | consumer =>
    rw [MpscQueue.step, MpscQueue.popStep]
    cases hcons : s.consumer with
    | discounting item => exact h.discount (hsafe item hcons)
    | idle | checking | taking | clearing | advancing => exact h.counted

/-! ## Draining -/

/-- How far the running `TryPop` is. -/
def progress (s : MpscQueue α) : ℕ :=
  match s.consumer with
  | .idle => 0
  | .checking _ => 1
  | .taking _ => 2
  | .clearing _ _ => 3
  | .advancing _ => 4
  | .discounting _ => 5

@[simp] theorem popStep_producers : (s.popStep c).producers = s.producers := by
  rw [MpscQueue.popStep]
  cases s.consumer <;> rfl

@[simp] theorem popStep_claimed : (s.popStep c).claimed = s.claimed := by
  rw [MpscQueue.popStep]
  cases s.consumer <;> rfl

variable (h : Inv c s) (hidle : ∀ p, (s.producers p).position = none)
include h hidle

theorem Inv.popStep_progress (hleft : s.popped.length < s.claimed.length) :
    6 * (s.popStep c).popped.length + (s.popStep c).progress = 6 * s.popped.length + s.progress + 1 := by
  have hknows := h.consumer
  have htaken := h.taken_length
  rw [MpscQueue.popStep, progress, progress]
  cases hcons : s.consumer with
  | idle | taking | advancing => rfl
  | checking tail =>
    rw [hcons] at hknows
    have htail : tail = s.tail := hknows
    subst htail
    have hcount : s.popped.length = s.tail := by
      rw [MpscQueue.taken, takenCount, hcons] at htaken
      simpa [Consumer.hand] using htaken
    have hpub : s.Published s.tail := by
      refine ⟨by rw [MpscQueue.freed, hcons], by rw [h.head]; omega, ?_⟩
      rintro ⟨p, hp⟩
      have := Producer.owned_position hp
      rw [hidle p] at this
      cases this
    dsimp only
    rw [if_pos (h.published _ hpub).1]
    rfl
  | clearing tail data =>
    rw [hcons] at hknows
    obtain ⟨-, -, item, rfl⟩ := hknows
    rfl
  | discounting item =>
    show 6 * (s.popped ++ [item]).length + 0 = 6 * s.popped.length + 5 + 1
    rw [List.length_append, List.length_singleton]
    omega

theorem Inv.drains : ∃ n, (run (MpscQueue.step c) s (List.replicate n .consumer)).popped = s.claimed := by
  generalize hwork : 6 * s.claimed.length - (6 * s.popped.length + s.progress) = work
  induction work using Nat.strong_induction_on generalizing s with
  | _ work ih =>
    by_cases hleft : s.popped.length < s.claimed.length
    · have hnext := h.popStep
      have hprogress := h.popStep_progress hidle hleft
      have hbound : s.progress ≤ 5 := by
        rw [progress]
        cases s.consumer <;> simp
      obtain ⟨n, hn⟩ := ih _ (by rw [popStep_claimed] at *; omega) hnext (by simpa using hidle) rfl
      refine ⟨n + 1, ?_⟩
      rw [popStep_claimed] at hn
      exact hn
    · refine ⟨0, ?_⟩
      have hprefix : s.popped <+: s.claimed := by
        refine (List.prefix_append s.popped s.consumer.hand).trans ?_
        rw [← MpscQueue.taken, h.taken]
        exact List.take_prefix _ _
      exact hprefix.eq_of_length_le (Nat.not_lt.mp hleft)

omit h hidle

/-! ## The bounded FIFO -/

theorem Counts.boundedFifo (h : Counts c s) : BoundedFifo c s where
  fifo := by
    rw [h.taken]
    exact List.take_prefix _ _
  kept pos hpos := by
    rw [h.taken_length]
    rcases Nat.lt_or_ge pos s.takenCount with hlt | hge
    · exact .inl hlt
    · right
      have hpub := h.published_of_returned hpos (freed_le_takenCount.trans hge)
      obtain ⟨hready, -, hdata⟩ := h.published pos hpub
      have hlt : pos < s.claimed.length := h.head ▸ hpub.2.1
      have hitem := List.getElem?_eq_getElem hlt
      exact ⟨hready, _, hitem, (hdata hge).trans hitem⟩
  bounded pos hpos := by
    rw [h.taken_length]
    have hle := freed_le_takenCount (s := s)
    rcases Nat.lt_or_ge pos s.freed with hlt | hge
    · omega
    · have hlap := (h.published pos (h.published_of_returned hpos hge)).2.1
      omega
  owners := h.slots
  counted := h.counted
  drains := h.drains

theorem Counts.unsafe_breaks (h : Counts c s) {e : QueueStep α} (hsafe : ¬ Safe c s e) : ¬ BoundedFifo c (s.step c e) := by
  intro hfifo
  cases e with
  | push p item => exact hsafe trivial
  | producer p =>
    refine hsafe fun item hprod q pos hq hindex => ?_
    have hne : q ≠ p := by
      rintro rfl
      rw [hprod] at hq
      cases hq
    rw [MpscQueue.step, MpscQueue.pushStep, hprod] at hfifo
    refine hne (hfifo.owners q p pos s.head ?_ ?_ hindex)
    · show ((s.setProducer p _).producers q).owned = some pos
      rw [setProducer_ne hne]
      exact hq
    · show ((s.setProducer p (.owning .waiting item s.head)).producers p).owned = some s.head
      rw [setProducer_self]
      rfl
  | consumer =>
    refine hsafe fun item hcons hzero => ?_
    have hbefore := h.counted
    have hafter := hfifo.counted
    rw [MpscQueue.step, MpscQueue.popStep, hcons] at hafter
    simp only [hzero, List.length_append, List.length_singleton] at hafter hbefore
    have hwrapped : ((0 : UInt64) - 1).toNat = 18446744073709551615 := rfl
    have hzero : (0 : UInt64).toNat = 0 := rfl
    omega

/-- The queue is a bounded FIFO all along a run exactly if no step of it claims a slot that is still being filled or
counts an item as popped before it was counted as pushed. -/
theorem boundedFifo_iff_along_safe (c : Capacity) (es : List (QueueStep α)) :
    (∀ pre, pre <+: es → BoundedFifo c (run (step c) {} pre)) ↔ Along (step c) (Safe c) {} es :=
  holds_iff_along (J := Counts c) { Inv.start c with counted := rfl } (fun _ h => h.boundedFifo) (fun _ e h => h.step e) (fun _ _ h => h.unsafe_breaks)

/-- A consumer that is quick enough: the item is popped before its producer counts it, and `size_` is at the far end of
its range. -/
theorem popped_before_counted : let c : Capacity := ⟨128, 7, by norm_num, rfl⟩
    ¬ ∀ pre, pre <+: .push 0 'x' :: (List.replicate 5 (.producer 0) ++ List.replicate 6 .consumer) →
      BoundedFifo c (run (step c) {} pre) := by
  intro c h
  have hcounted := (h _ (List.prefix_refl _)).counted
  revert hcounted
  decide

end MpscQueue

end AgentProtocol.Mcp
