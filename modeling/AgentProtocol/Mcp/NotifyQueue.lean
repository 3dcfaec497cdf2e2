-- SUMMARY: The notify queue: Sends from any thread, HandleNotify on the event thread in batches, and exactly when no message is lost.
import AgentProtocol.Mcp.MpscQueue

/-!
# The notify queue

`Send` pushes a message and then writes to an eventfd. The event thread runs `HandleNotify` when the eventfd is
readable: it drains the eventfd, pops a batch, hands the batch to the message handler, and notifies itself if the queue
is not empty then. Pushes, pops and accesses to the eventfd are one step each, and any number of Sends may be between
their push and their write.

The loop that fills the batch pops first and looks at the size of the batch after that. Where the batch is full and the
queue is not empty, the message it has popped goes nowhere.
-/

namespace AgentProtocol.Mcp

open Lib

variable {α : Type}

/-- What the constructor fixes: the capacity of the queue and `maxBatchSize_`. -/
structure QueueLimits where
  capacity : Capacity
  maxBatchSize : ℕ
  atLeastOne : 0 < maxBatchSize

/-- Where the event thread stands in `HandleNotify`. -/
inductive HandleNotify (α : Type) where
  | idle
  | draining
  | popping (localMessages : List α)
  | handing (localMessages : List α)
  | checking
  | renotifying

/-- The queue and its threads. `pushed` are the messages that were ever pushed, in this order; `due` are the Sends that
have pushed and not yet notified, and `accepted` those that returned true, both by their place in `pushed`. -/
structure NotifyQueue (α : Type) where
  items : List α := []
  eventFd : ℕ := 0
  handleNotify : HandleNotify α := .idle
  pushed : List α := []
  due : List ℕ := []
  accepted : List ℕ := []
  handled : List α := []

/-- A Send pushes, a Send that has pushed notifies, or the event thread makes its next step. -/
inductive QueueEvent (α : Type) where
  | push (msg : α)
  | notify (k : ℕ)
  | eventLoop

namespace NotifyQueue

/-- The largest value of an eventfd. A write that would take it further fails. -/
def maxEventFd : ℕ := 2 ^ 64 - 2

/-- `NotifyEventId`: add one to the eventfd. -/
def notifyEventId (s : NotifyQueue α) : NotifyQueue α × Bool :=
  if s.eventFd < maxEventFd then ({ s with eventFd := s.eventFd + 1 }, true) else (s, false)

variable (l : QueueLimits)

/-- `Push` of `Send`. -/
def push (s : NotifyQueue α) (msg : α) : NotifyQueue α :=
  if s.items.length < l.capacity.value then
    { s with items := s.items ++ [msg], pushed := s.pushed ++ [msg], due := s.due ++ [s.pushed.length] }
  else s

/-- The rest of `Send`, for the Send that is the `k`th of those that are due. -/
def notify (s : NotifyQueue α) (k : ℕ) : NotifyQueue α :=
  match s.due[k]? with
  | none => s
  | some i =>
    let (s', ok) := s.notifyEventId
    { s' with due := s.due.eraseIdx k, accepted := if ok then s.accepted ++ [i] else s.accepted }

/-- The next step of the event thread. -/
def eventLoop (s : NotifyQueue α) : NotifyQueue α :=
  match s.handleNotify with
  | .idle => if s.eventFd = 0 then s else { s with handleNotify := .draining }
  | .draining => if s.eventFd = 0 then { s with handleNotify := .popping [] } else { s with eventFd := 0 }
  | .popping localMessages =>
    match s.items with
    | [] => { s with handleNotify := .handing localMessages }
    | msg :: items =>
      if localMessages.length < l.maxBatchSize then
        { s with items := items, handleNotify := .popping (localMessages ++ [msg]) }
      else { s with items := items, handleNotify := .handing localMessages }
  | .handing [] => { s with handleNotify := .checking }
  | .handing (localMsg :: localMessages) =>
    { s with handled := s.handled ++ [localMsg], handleNotify := .handing localMessages }
  | .checking => { s with handleNotify := if s.items = [] then .idle else .renotifying }
  | .renotifying => { s.notifyEventId.1 with handleNotify := .idle }

def step (s : NotifyQueue α) : QueueEvent α → NotifyQueue α
  | .push msg => s.push l msg
  | .notify k => s.notify k
  | .eventLoop => s.eventLoop l

/-! ## What is promised -/

/-- The messages that `HandleNotify` has popped and not yet handed over. -/
def localMessages (s : NotifyQueue α) : List α :=
  match s.handleNotify with
  | .popping localMessages => localMessages
  | .handing localMessages => localMessages
  | _ => []

/-- The event thread has nothing to do: no HandleNotify is running and none is called for. -/
def Resting (s : NotifyQueue α) : Prop := s.handleNotify = .idle ∧ s.eventFd = 0

structure Lossless (s : NotifyQueue α) : Prop where
  /-- Every message is handed over once and in the order of the Sends, as far as it has got. -/
  order : s.handled ++ s.localMessages ++ s.items = s.pushed
  /-- A Send returns true once, for a message of its own. -/
  accepted : s.accepted.Nodup ∧ ∀ i ∈ s.accepted, i < s.pushed.length
  /-- A message in the queue is notified of, unless its own Send is about to do that. -/
  pending : s.handleNotify = .idle → s.items ≠ [] →
    0 < s.eventFd ∨ ∀ i, s.handled.length ≤ i → i < s.pushed.length → i ∈ s.due
  /-- Left to itself the event thread comes to rest. -/
  rests : ∃ n, Resting (run (step l) s (List.replicate n .eventLoop))
  /-- At rest, what was sent is handled. -/
  handled : s.Resting → s.due = [] → s.handled = s.pushed

/-- The queue is empty whenever the batch is full. -/
def Fits (s : NotifyQueue α) : QueueEvent α → Prop
  | .eventLoop => ∀ localMessages, s.handleNotify = .popping localMessages → l.maxBatchSize ≤ localMessages.length →
      s.items = []
  | _ => True

/-! ## Coming to rest -/

/-- What the event thread has still to do at most, in steps: a round for a notification, and another one for every
message in the queue. -/
def work (s : NotifyQueue α) : ℕ :=
  let again := if s.eventFd = 0 then 0 else 6
  let messages := 20 * s.items.length
  match s.handleNotify with
  | .idle => if s.eventFd = 0 then 0 else 6 + messages
  | .draining => if s.eventFd = 0 then 4 + messages else 5 + messages
  | .popping localMessages => 3 + again + localMessages.length + messages
  | .handing localMessages => (if s.items = [] then 2 + again else 9 + messages) + localMessages.length
  | .checking => if s.items = [] then 1 + again else 8 + messages
  | .renotifying => 7 + messages

variable {l} {s : NotifyQueue α}

theorem notifyEventId_pos (s : NotifyQueue α) : s.notifyEventId.1.eventFd ≠ 0 := by
  rw [notifyEventId]
  by_cases hlt : s.eventFd < maxEventFd
  · rw [if_pos hlt]
    exact Nat.succ_ne_zero _
  · rw [if_neg hlt]
    have hpos : 0 < maxEventFd := by decide
    show s.eventFd ≠ 0
    omega

@[simp] theorem notifyEventId_items (s : NotifyQueue α) : s.notifyEventId.1.items = s.items := by
  rw [notifyEventId]
  split <;> rfl

theorem work_eventLoop (hwork : ¬ s.Resting) : (s.eventLoop l).work < s.work := by
  rw [eventLoop]
  cases hphase : s.handleNotify with
  | idle =>
    have hfd : s.eventFd ≠ 0 := fun hfd => hwork ⟨hphase, hfd⟩
    simp [work, hphase, hfd]
  | draining =>
    by_cases hfd : s.eventFd = 0
    · simp [work, hphase, hfd]
    · simp [work, hphase, hfd]
  | popping localMessages =>
    cases hitems : s.items with
    | nil =>
      simp [work, hphase, hitems]
    | cons msg items =>
      dsimp only
      by_cases hroom : localMessages.length < l.maxBatchSize
      · rw [if_pos hroom]
        simp only [work, hphase, hitems, List.length_cons, List.length_append, List.length_nil]
        omega
      · rw [if_neg hroom]
        simp only [work, hphase, hitems, List.length_cons]
        by_cases hlast : items = []
        · rw [if_pos hlast]
          omega
        · rw [if_neg hlast]
          omega
  | handing localMessages =>
    cases localMessages with
    | nil =>
      by_cases hitems : s.items = []
      · simp [work, hphase, hitems]
      · simp [work, hphase, hitems]
    | cons localMsg localMessages => simp [work, hphase]
  | checking =>
    by_cases hitems : s.items = []
    · by_cases hfd : s.eventFd = 0
      · simp [work, hphase, hitems, hfd]
      · simp [work, hphase, hitems, hfd]
    · simp [work, hphase, hitems]
  | renotifying =>
    have hfd := s.notifyEventId_pos
    simp [work, hphase, hfd]

theorem eventLoop_rests (s : NotifyQueue α) : ∃ n, Resting (run (step l) s (List.replicate n .eventLoop)) := by
  generalize hwork : s.work = work
  induction work using Nat.strong_induction_on generalizing s with
  | _ work ih =>
    by_cases hrest : s.Resting
    · exact ⟨0, hrest⟩
    · obtain ⟨n, hn⟩ := ih _ (hwork ▸ work_eventLoop hrest) (s.eventLoop l) rfl
      exact ⟨n + 1, hn⟩

/-! ## The invariant -/

structure Inv (s : NotifyQueue α) : Prop where
  order : s.handled ++ s.localMessages ++ s.items = s.pushed
  sends : (s.accepted ++ s.due).Nodup ∧ ∀ i ∈ s.accepted ++ s.due, i < s.pushed.length
  pending : s.handleNotify = .idle → s.eventFd = 0 → ∀ i, s.handled.length ≤ i → i < s.pushed.length → i ∈ s.due

theorem Inv.start : Inv ({} : NotifyQueue α) where
  order := rfl
  sends := ⟨List.nodup_nil, fun _ h => by cases h⟩
  pending _ _ i _ h := absurd h (Nat.not_lt_zero i)

theorem Inv.push (h : Inv s) (msg : α) : Inv (s.push l msg) := by
  rw [NotifyQueue.push]
  by_cases hroom : s.items.length < l.capacity.value
  · rw [if_pos hroom]
    refine ⟨?_, ⟨?_, ?_⟩, ?_⟩
    · show s.handled ++ s.localMessages ++ (s.items ++ [msg]) = s.pushed ++ [msg]
      rw [← h.order]
      simp
    · show (s.accepted ++ (s.due ++ [s.pushed.length])).Nodup
      rw [← List.append_assoc, List.nodup_append]
      refine ⟨h.sends.1, List.nodup_singleton _, ?_⟩
      intro i hi j hj
      have := h.sends.2 i hi
      rw [List.mem_singleton.mp hj]
      omega
    · intro i hi
      show i < (s.pushed ++ [msg]).length
      rw [List.length_append, List.length_singleton]
      have hi : i ∈ s.accepted ++ (s.due ++ [s.pushed.length]) := hi
      rw [← List.append_assoc] at hi
      rcases List.mem_append.mp hi with hi | hi
      · exact Nat.lt_succ_of_lt (h.sends.2 i hi)
      · rw [List.mem_singleton.mp hi]
        exact Nat.lt_succ_self _
    · intro hidle hfd i hle hlt
      have hlt : i < (s.pushed ++ [msg]).length := hlt
      rw [List.length_append, List.length_singleton] at hlt
      by_cases hlast : i = s.pushed.length
      · rw [hlast]
        exact List.mem_append_right _ (List.mem_singleton.mpr rfl)
      · exact List.mem_append_left _ (h.pending hidle hfd i hle (by omega))
  · rw [if_neg hroom]
    exact h

theorem Inv.notify (h : Inv s) (k : ℕ) : Inv (s.notify k) := by
  rw [NotifyQueue.notify]
  cases hdue : s.due[k]? with
  | none => exact h
  | some i =>
    obtain ⟨hk, hi⟩ := List.getElem?_eq_some_iff.mp hdue
    have hperm : (i :: s.due.eraseIdx k).Perm s.due := hi ▸ List.getElem_cons_eraseIdx_perm hk
    have hfd := s.notifyEventId_pos
    rw [notifyEventId] at hfd ⊢
    by_cases hlt : s.eventFd < maxEventFd
    · rw [if_pos hlt]
      have hsends : ((s.accepted ++ [i]) ++ s.due.eraseIdx k).Perm (s.accepted ++ s.due) := by
        rw [List.append_assoc]
        exact hperm.append_left _
      refine ⟨h.order, ⟨hsends.nodup_iff.mpr h.sends.1, fun j hj => h.sends.2 j (hsends.mem_iff.mp hj)⟩, ?_⟩
      intro _ hzero
      exact absurd hzero (Nat.succ_ne_zero _)
    · rw [if_neg hlt] at hfd ⊢
      have hsub : (s.accepted ++ s.due.eraseIdx k).Sublist (s.accepted ++ s.due) :=
        (List.eraseIdx_sublist _ _).append_left _
      refine ⟨h.order, ⟨h.sends.1.sublist hsub, fun j hj => h.sends.2 j (hsub.subset hj)⟩, ?_⟩
      intro _ hzero
      exact absurd hzero hfd

theorem Inv.eventLoop (h : Inv s) (hfits : Fits l s .eventLoop) : Inv (s.eventLoop l) := by
  have horder := h.order
  rw [NotifyQueue.eventLoop]
  rw [localMessages] at horder
  cases hphase : s.handleNotify with
  | idle =>
    dsimp only
    by_cases hfd : s.eventFd = 0
    · rw [if_pos hfd]
      exact h
    · rw [if_neg hfd]
      rw [hphase] at horder
      exact ⟨horder, h.sends, fun hidle => by cases hidle⟩
  | draining =>
    rw [hphase] at horder
    dsimp only
    by_cases hfd : s.eventFd = 0
    · rw [if_pos hfd]
      exact ⟨horder, h.sends, fun hidle => by cases hidle⟩
    · rw [if_neg hfd]
      exact ⟨horder, h.sends, fun hidle => by cases hidle⟩
  | popping localMessages =>
    rw [hphase] at horder
    cases hitems : s.items with
    | nil =>
      rw [hitems] at horder
      exact ⟨horder, h.sends, fun hidle => by cases hidle⟩
    | cons msg items =>
      have hroom : localMessages.length < l.maxBatchSize := by
        by_contra hfull
        have hempty := hfits localMessages hphase (Nat.not_lt.mp hfull)
        rw [hitems] at hempty
        cases hempty
      dsimp only
      rw [if_pos hroom]
      refine ⟨?_, h.sends, fun hidle => by cases hidle⟩
      show s.handled ++ (localMessages ++ [msg]) ++ items = s.pushed
      rw [← horder, hitems]
      simp
  | handing localMessages =>
    rw [hphase] at horder
    cases localMessages with
    | nil => exact ⟨horder, h.sends, fun hidle => by cases hidle⟩
    | cons localMsg localMessages =>
      refine ⟨?_, h.sends, fun hidle => by cases hidle⟩
      show s.handled ++ [localMsg] ++ localMessages ++ s.items = s.pushed
      rw [← horder]
      simp
  | checking =>
    rw [hphase] at horder
    dsimp only
    by_cases hitems : s.items = []
    · rw [if_pos hitems]
      refine ⟨horder, h.sends, fun _ _ i hle hlt => ?_⟩
      have hall : s.handled = s.pushed := by simpa [hitems] using horder
      have hle : s.handled.length ≤ i := hle
      have hlt : i < s.pushed.length := hlt
      rw [hall] at hle
      omega
    · rw [if_neg hitems]
      exact ⟨horder, h.sends, fun hidle => by cases hidle⟩
  | renotifying =>
    rw [hphase] at horder
    have hfd := s.notifyEventId_pos
    dsimp only
    rw [notifyEventId] at hfd ⊢
    by_cases hlt : s.eventFd < maxEventFd
    · rw [if_pos hlt]
      exact ⟨horder, h.sends, fun _ hzero => absurd hzero (Nat.succ_ne_zero _)⟩
    · rw [if_neg hlt] at hfd ⊢
      exact ⟨horder, h.sends, fun _ hzero => absurd hzero hfd⟩

theorem Inv.step (h : Inv s) (e : QueueEvent α) (hfits : Fits l s e) : Inv (s.step l e) := by
  cases e with
  | push msg => exact h.push msg
  | notify k => exact h.notify k
  | eventLoop => exact h.eventLoop hfits

theorem Inv.lossless (h : Inv s) : Lossless l s where
  order := h.order
  accepted := ⟨h.sends.1.of_append_left, fun i hi => h.sends.2 i (List.mem_append_left _ hi)⟩
  pending hidle _ := by
    by_cases hfd : s.eventFd = 0
    · exact .inr (h.pending hidle hfd)
    · exact .inl (Nat.pos_of_ne_zero hfd)
  rests := s.eventLoop_rests
  handled hrest hdue := by
    have horder := h.order
    have hall := h.pending hrest.1 hrest.2 s.handled.length (le_refl _)
    rw [hdue] at hall
    have hlength : s.pushed.length ≤ s.handled.length := Nat.not_lt.mp fun hlt => by cases hall hlt
    rw [List.append_assoc] at horder
    exact (horder ▸ List.prefix_append s.handled _).eq_of_length_le hlength

theorem Inv.overflow (h : Inv s) {e : QueueEvent α} (hfits : ¬ Fits l s e) : ¬ Lossless l (s.step l e) := by
  intro hlossless
  cases e with
  | push | notify => exact hfits trivial
  | eventLoop =>
    refine hfits fun localMessages hphase hfull => ?_
    cases hitems : s.items with
    | nil => rfl
    | cons msg items =>
      have hbefore := h.order
      have hafter := hlossless.order
      rw [NotifyQueue.step, NotifyQueue.eventLoop, hphase, hitems] at hafter
      dsimp only at hafter
      rw [if_neg (Nat.not_lt.mpr hfull)] at hafter
      rw [NotifyQueue.localMessages, hphase, hitems] at hbefore
      have hlengths := congrArg List.length (hafter.trans hbefore.symm)
      simp [NotifyQueue.localMessages] at hlengths

/-- Nothing is lost all along a run exactly if no batch of it is full while the queue holds more. -/
theorem lossless_iff_along_fits (l : QueueLimits) (es : List (QueueEvent α)) :
    (∀ pre, pre <+: es → Lossless l (run (step l) {} pre)) ↔ Along (step l) (Fits l) {} es :=
  holds_iff_along Inv.start (fun _ h => h.lossless) (fun _ e h => h.step e) (fun _ _ h => h.overflow)

/-- Batches of one message, and two messages: the second one is popped and dropped. -/
theorem second_message_dropped : let l : QueueLimits := ⟨⟨128, 7, by norm_num, rfl⟩, 1, Nat.one_pos⟩
    ¬ ∀ pre, pre <+: [.push 'a', .notify 0, .push 'b', .notify 0] ++ List.replicate 8 .eventLoop →
      Lossless l (run (step l) {} pre) := by
  intro l h
  have horder := (h _ (List.prefix_refl _)).order
  revert horder
  decide

end NotifyQueue

end AgentProtocol.Mcp
