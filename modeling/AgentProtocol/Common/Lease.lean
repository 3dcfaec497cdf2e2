-- SUMMARY: The lease table shared by heartbeats and liveness: renewals, revocations and sweeps, and when exactly a sweep deletes a key.
import AgentProtocol.Lib.Run
import AgentProtocol.Lib.Table

/-!
# Leases

A lease is healthy until its time to live has passed, and it is deleted after a further grace
period. Both transitions are made by a sweep, so a lease may be late for both at once and is
still healthy until the next sweep.

`due` gives the deadline of a key from the history of calls alone, and the table agrees with it
after every history.
-/

namespace AgentProtocol.Common

open Lib

inductive LeaseState where
  | healthy
  | unhealthy
  deriving DecidableEq

structure Lease where
  ttlSeconds : ℤ
  gracePeriodSeconds : ℤ
  expiresAt : ℚ
  graceDeadline : ℚ
  lastRenewAt : ℚ
  state : LeaseState := .healthy

/-- `_leases`, in insertion order. -/
abbrev LeaseTable (κ : Type) := Dict κ Lease

namespace Lease

/-- A new lease; an expired one starts with its grace period. -/
def new (ttl grace : ℤ) (expired : Bool) (now : ℚ) : Lease :=
  if expired then
    { ttlSeconds := ttl, gracePeriodSeconds := grace, expiresAt := now, graceDeadline := now + grace
      lastRenewAt := now, state := .unhealthy }
  else
    { ttlSeconds := ttl, gracePeriodSeconds := grace, expiresAt := now + ttl, graceDeadline := now + ttl + grace
      lastRenewAt := now }

def renew (lease : Lease) (now : ℚ) : Lease :=
  { lease with
    lastRenewAt := now, expiresAt := now + lease.ttlSeconds
    graceDeadline := now + lease.ttlSeconds + lease.gracePeriodSeconds, state := .healthy }

def revoke (lease : Lease) (now : ℚ) : Lease :=
  { lease with state := .unhealthy, expiresAt := now, graceDeadline := now + lease.gracePeriodSeconds }

/-- A sweep notices that the time to live has passed. -/
def expires (lease : Lease) (now : ℚ) : Bool := lease.state = .healthy && lease.expiresAt ≤ now

def mark (lease : Lease) (now : ℚ) : Lease := if lease.expires now then { lease with state := .unhealthy } else lease

/-- A marked lease whose grace period has passed, too. -/
def overdue (lease : Lease) (now : ℚ) : Bool := lease.state = .unhealthy && lease.graceDeadline ≤ now

end Lease

namespace LeaseTable

variable {κ : Type} [DecidableEq κ]

def install (t : LeaseTable κ) (key : κ) (ttl grace : ℤ) (expired : Bool) (now : ℚ) : LeaseTable κ :=
  t.set key (Lease.new ttl grace expired now)

/-- `renew`; without a lease it raises a `KeyError`. -/
def renew (t : LeaseTable κ) (key : κ) (now : ℚ) : Option (LeaseTable κ) :=
  (t.lookup key).map fun lease => t.set key (lease.renew now)

/-- `revoke`, and whether there was a lease. -/
def revoke (t : LeaseTable κ) (key : κ) (permanent : Bool) (now : ℚ) : Bool × LeaseTable κ :=
  match t.lookup key with
  | none => (false, t)
  | some lease => (true, if permanent then t.erase key else t.set key (lease.revoke now))

def drop (t : LeaseTable κ) (key : κ) : LeaseTable κ := t.erase key

omit [DecidableEq κ] in
/-- The keys that a sweep reports as unhealthy. -/
def newlyUnhealthy (t : LeaseTable κ) (now : ℚ) : List κ := (t.rows.filter fun p => p.2.expires now).map Prod.fst

/-- The keys that a sweep removes and hands to its caller. -/
def toDelete (t : LeaseTable κ) (now : ℚ) : List κ :=
  ((t.mapValues fun lease => lease.mark now).rows.filter fun p => p.2.overdue now).map Prod.fst

/-- The table after a sweep. -/
def swept (t : LeaseTable κ) (now : ℚ) : LeaseTable κ :=
  (t.mapValues fun lease => lease.mark now).filter fun p => !p.2.overdue now

def sweepTick (t : LeaseTable κ) (now : ℚ) : (List κ × List κ) × LeaseTable κ :=
  ((t.newlyUnhealthy now, t.toDelete now), t.swept now)

end LeaseTable

/-! ## Histories -/

inductive LeaseOp (κ : Type) where
  | install (key : κ) (ttl grace : ℤ) (expired : Bool)
  | renew (key : κ)
  | revoke (key : κ) (permanent : Bool)
  | drop (key : κ)
  | sweepTick

namespace LeaseOp

variable {κ : Type}

/-- The key that a call is about; a sweep is about all of them. -/
def key? : LeaseOp κ → Option κ
  | .install key .. => some key
  | .renew key => some key
  | .revoke key _ => some key
  | .drop key => some key
  | .sweepTick => none

def installs (key : κ) : LeaseOp κ → Prop
  | .install key' .. => key' = key
  | _ => False

/-- The call starts the time of the key anew. -/
def restarts (key : κ) : LeaseOp κ → Prop
  | .install key' .. => key' = key
  | .renew key' => key' = key
  | _ => False

/-- Grace periods are not negative. -/
def Proper : LeaseOp κ → Prop
  | .install _ _ grace _ => 0 ≤ grace
  | _ => True

end LeaseOp

variable {κ : Type} [DecidableEq κ]

/-- The table after a call; one that fails changes nothing. -/
def LeaseTable.step (t : LeaseTable κ) (e : LeaseOp κ × ℚ) : LeaseTable κ :=
  match e.1 with
  | .install key ttl grace expired => t.install key ttl grace expired e.2
  | .renew key => (t.renew key e.2).getD t
  | .revoke key permanent => (t.revoke key permanent e.2).2
  | .drop key => t.drop key
  | .sweepTick => (t.sweepTick e.2).2

/-- The times that a key was installed with, and its deadline. -/
structure Due where
  ttl : ℤ
  grace : ℤ
  deadline : ℚ
  deriving DecidableEq

/-- What a call says about the deadline of a key. -/
def Due.step (key : κ) (due : Option Due) (e : LeaseOp κ × ℚ) : Option Due :=
  match e.1 with
  | .install key' ttl grace expired =>
    if key' = key then some { ttl, grace, deadline := if expired then e.2 + grace else e.2 + ttl + grace } else due
  | .renew key' => if key' = key then due.map fun d => { d with deadline := e.2 + d.ttl + d.grace } else due
  | .revoke key' _ => if key' = key then due.map fun d => { d with deadline := e.2 + d.grace } else due
  | .drop _ => due
  | .sweepTick => due

/-- The deadline of a key, from the history alone: the time of the last installation or renewal
with the time to live and the grace period, or the time of the last revocation or expired
installation with the grace period. -/
def due (key : κ) (es : List (LeaseOp κ × ℚ)) : Option Due := run (Due.step key) none es

/-! ## The table and the history -/

/-- The lease has the deadline of the history, and a healthy one expires a grace period before. -/
structure Lease.Meets (lease : Lease) (d : Due) : Prop where
  ttl : lease.ttlSeconds = d.ttl
  grace : lease.gracePeriodSeconds = d.grace
  deadline : lease.graceDeadline = d.deadline
  nonneg : 0 ≤ d.grace
  healthy : lease.state = .healthy → lease.expiresAt + d.grace = d.deadline

section Meets

variable {lease : Lease} {d : Due}

theorem Lease.meets_new (ttl : ℤ) {grace : ℤ} (h : 0 ≤ grace) (expired : Bool) (now : ℚ) : (Lease.new ttl grace expired now).Meets
      { ttl, grace, deadline := if expired then now + grace else now + ttl + grace } := by
  cases expired with
  | true => exact ⟨rfl, rfl, rfl, h, fun hstate => nomatch hstate⟩
  | false => exact ⟨rfl, rfl, rfl, h, fun _ => rfl⟩

variable (h : lease.Meets d) (now : ℚ)
include h

theorem Lease.Meets.renew : (lease.renew now).Meets { d with deadline := now + d.ttl + d.grace } := by
  refine ⟨h.ttl, h.grace, ?_, h.nonneg, fun _ => ?_⟩
  · simp only [Lease.renew, h.ttl, h.grace]
  · simp only [Lease.renew, h.ttl]

theorem Lease.Meets.revoke : (lease.revoke now).Meets { d with deadline := now + d.grace } := by
  refine ⟨h.ttl, h.grace, ?_, h.nonneg, fun hstate => nomatch hstate⟩
  simp only [Lease.revoke, h.grace]

theorem Lease.Meets.mark : (lease.mark now).Meets d := by
  unfold Lease.mark
  split
  · exact ⟨h.ttl, h.grace, h.deadline, h.nonneg, fun hstate => nomatch hstate⟩
  · exact h

theorem Lease.Meets.overdue_mark : (lease.mark now).overdue now = true ↔ d.deadline ≤ now := by
  rw [← h.deadline]
  cases hstate : lease.state with
  | unhealthy => simp [Lease.overdue, Lease.mark, Lease.expires, hstate]
  | healthy =>
    have hexpires : lease.graceDeadline ≤ now → lease.expiresAt ≤ now := by
      intro hdue
      have hgrace : (0 : ℚ) ≤ d.grace := by exact_mod_cast h.nonneg
      calc lease.expiresAt ≤ lease.expiresAt + d.grace := by linarith
        _ = lease.graceDeadline := (h.healthy hstate).trans h.deadline.symm
        _ ≤ now := hdue
    constructor
    · intro hoverdue
      unfold Lease.mark at hoverdue
      split at hoverdue
      · simpa [Lease.overdue] using hoverdue
      · simp [Lease.overdue, hstate] at hoverdue
    · intro hdue
      simp [Lease.mark, Lease.expires, hstate, hexpires hdue, Lease.overdue, hdue]

omit h

end Meets

section Table

variable {t : LeaseTable κ} {key : κ} {now : ℚ}

theorem LeaseTable.lookup_swept (t : LeaseTable κ) (key : κ) (now : ℚ) :
    (t.swept now).lookup key = ((t.lookup key).map (·.mark now)).filter fun lease => !lease.overdue now := by
  rw [swept, Dict.lookup_filter, Dict.lookup_mapValues]

theorem LeaseTable.mem_newlyUnhealthy :
    key ∈ t.newlyUnhealthy now ↔ ∃ lease, t.lookup key = some lease ∧ lease.expires now = true := by
  simp [newlyUnhealthy, Dict.lookup_eq_some]

theorem LeaseTable.mem_toDelete :
    key ∈ t.toDelete now ↔ ∃ lease, t.lookup key = some lease ∧ (lease.mark now).overdue now = true := by
  have hmem : key ∈ t.toDelete now ↔
      ∃ lease, (t.mapValues fun lease => lease.mark now).lookup key = some lease ∧ lease.overdue now = true := by
    simp [toDelete, Dict.lookup_eq_some]
  rw [hmem, Dict.lookup_mapValues]
  simp

end Table

/-! ## Invariants of a history -/

def LeaseTable.after (es : List (LeaseOp κ × ℚ)) : LeaseTable κ := run LeaseTable.step ∅ es

/-- Every lease has the deadline that the history gives its key. -/
def LeaseTable.Timed (t : LeaseTable κ) (es : List (LeaseOp κ × ℚ)) : Prop :=
  ∀ key lease, t.lookup key = some lease → ∃ d, due key es = some d ∧ lease.Meets d

section Steps

variable {t : LeaseTable κ} {key : κ} {e : LeaseOp κ × ℚ} {es : List (LeaseOp κ × ℚ)}

theorem LeaseTable.lookup_renew (t : LeaseTable κ) (key' key : κ) (now : ℚ) :
    ((t.renew key' now).getD t).lookup key = if key' = key then (t.lookup key).map (·.renew now) else t.lookup key := by
  cases hlease : t.lookup key' with
  | none =>
    have hfails : t.renew key' now = none := by simp [renew, hlease]
    rw [hfails, Option.getD_none]
    split
    · rename_i heq
      rw [← heq, hlease]
      rfl
    · rfl
  | some lease =>
    have hrenewed : t.renew key' now = some (t.set key' (lease.renew now)) := by simp [renew, hlease]
    rw [hrenewed, Option.getD_some, Dict.lookup_set]
    split
    · rename_i heq
      rw [← heq, hlease]
      rfl
    · rfl

theorem LeaseTable.lookup_revoke (t : LeaseTable κ) (key' key : κ) (permanent : Bool) (now : ℚ) :
    (t.revoke key' permanent now).2.lookup key =
      if key' = key then (if permanent then none else (t.lookup key).map (·.revoke now)) else t.lookup key := by
  cases hlease : t.lookup key' with
  | none =>
    have hnothing : (t.revoke key' permanent now).2 = t := by simp [revoke, hlease]
    rw [hnothing]
    split
    · rename_i heq
      rw [← heq, hlease]
      cases permanent <;> rfl
    · rfl
  | some lease =>
    cases permanent with
    | true =>
      have hgone : (t.revoke key' true now).2 = t.erase key' := by simp [revoke, hlease]
      rw [hgone, Dict.lookup_erase]
      simp only [eq_comm, if_true]
    | false =>
      have hmarked : (t.revoke key' false now).2 = t.set key' (lease.revoke now) := by simp [revoke, hlease]
      rw [hmarked, Dict.lookup_set]
      split
      · rename_i heq
        rw [← heq, hlease]
        rfl
      · rfl

theorem LeaseTable.lookup_step (t : LeaseTable κ) (e : LeaseOp κ × ℚ) (key : κ) : (t.step e).lookup key =
      match e.1 with
      | .install key' ttl grace expired => if key' = key then some (Lease.new ttl grace expired e.2) else t.lookup key
      | .renew key' => if key' = key then (t.lookup key).map (·.renew e.2) else t.lookup key
      | .revoke key' permanent =>
        if key' = key then (if permanent then none else (t.lookup key).map (·.revoke e.2)) else t.lookup key
      | .drop key' => if key' = key then none else t.lookup key
      | .sweepTick => ((t.lookup key).map (·.mark e.2)).filter fun lease => !lease.overdue e.2 := by
  obtain ⟨op, now⟩ := e
  cases op with
  | install key' ttl grace expired => exact Dict.lookup_set _ _ _ _
  | renew key' => exact t.lookup_renew key' key now
  | revoke key' permanent => exact t.lookup_revoke key' key permanent now
  | drop key' =>
    refine (Dict.lookup_erase _ _ _).trans ?_
    simp only [eq_comm]
  | sweepTick => exact t.lookup_swept key now

theorem due_append : due key (es ++ [e]) = Due.step key (due key es) e := run_append

theorem LeaseTable.Timed.step (h : t.Timed es) (he : e.1.Proper) : (t.step e).Timed (es ++ [e]) := by
  intro key lease hlease
  rw [LeaseTable.lookup_step] at hlease
  rw [due_append]
  obtain ⟨op, now⟩ := e
  cases op with
  | install key' ttl grace expired =>
    dsimp only [Due.step] at hlease ⊢
    split at hlease
    · rename_i heq
      obtain rfl := Option.some.inj hlease
      rw [if_pos heq]
      exact ⟨_, rfl, Lease.meets_new ttl he expired now⟩
    · rename_i hne
      rw [if_neg hne]
      exact h key lease hlease
  | renew key' =>
    dsimp only [Due.step] at hlease ⊢
    split at hlease
    · rename_i heq
      obtain ⟨old, hold, rfl⟩ := Option.map_eq_some_iff.mp hlease
      obtain ⟨d, hd, hmeets⟩ := h key old hold
      rw [if_pos heq, hd]
      exact ⟨_, rfl, hmeets.renew now⟩
    · rename_i hne
      rw [if_neg hne]
      exact h key lease hlease
  | revoke key' permanent =>
    dsimp only [Due.step] at hlease ⊢
    split at hlease
    · rename_i heq
      split at hlease
      · cases hlease
      obtain ⟨old, hold, rfl⟩ := Option.map_eq_some_iff.mp hlease
      obtain ⟨d, hd, hmeets⟩ := h key old hold
      rw [if_pos heq, hd]
      exact ⟨_, rfl, hmeets.revoke now⟩
    · rename_i hne
      rw [if_neg hne]
      exact h key lease hlease
  | drop key' =>
    dsimp only [Due.step] at hlease ⊢
    split at hlease
    · cases hlease
    exact h key lease hlease
  | sweepTick =>
    obtain ⟨hmark, -⟩ := Option.filter_eq_some_iff.mp hlease
    obtain ⟨old, hold, rfl⟩ := Option.map_eq_some_iff.mp hmark
    obtain ⟨d, hd, hmeets⟩ := h key old hold
    exact ⟨d, hd, hmeets.mark now⟩

/-- The key has no lease, or one that is unhealthy already. -/
def LeaseTable.Spent (t : LeaseTable κ) (key : κ) : Prop := ∀ lease, t.lookup key = some lease → lease.state = .unhealthy

theorem LeaseTable.Spent.notMem (h : t.Spent key) (now : ℚ) : key ∉ t.newlyUnhealthy now := by
  rw [mem_newlyUnhealthy]
  rintro ⟨lease, hlease, hexpires⟩
  simp [Lease.expires, h lease hlease] at hexpires

theorem Lease.mark_state {lease : Lease} {now : ℚ} (h : lease.state = .unhealthy ∨ lease.expires now = true) :
    (lease.mark now).state = .unhealthy := by
  unfold Lease.mark
  split
  · rfl
  · rename_i hexpires
    exact h.resolve_right hexpires

theorem LeaseTable.Spent.step (h : t.Spent key) (he : ¬ e.1.restarts key) : (t.step e).Spent key := by
  intro lease hlease
  rw [LeaseTable.lookup_step] at hlease
  obtain ⟨op, now⟩ := e
  cases op with
  | install | renew =>
    exact h lease ((if_neg he).symm.trans hlease)
  | revoke key' permanent =>
    dsimp only at hlease
    split at hlease
    · split at hlease
      · cases hlease
      obtain ⟨old, -, rfl⟩ := Option.map_eq_some_iff.mp hlease
      rfl
    · exact h lease hlease
  | drop key' =>
    dsimp only at hlease
    split at hlease
    · cases hlease
    exact h lease hlease
  | sweepTick =>
    obtain ⟨hmark, -⟩ := Option.filter_eq_some_iff.mp hlease
    obtain ⟨old, hold, rfl⟩ := Option.map_eq_some_iff.mp hmark
    exact Lease.mark_state (.inl (h old hold))

theorem LeaseTable.Spent.run (h : t.Spent key) (hes : ∀ e ∈ es, ¬ e.1.restarts key) : (run LeaseTable.step t es).Spent key := by
  induction es generalizing t with
  | nil => exact h
  | cons e es ih => exact ih (h.step (hes e (by simp))) fun e he => hes e (by simp [he])

theorem LeaseTable.spent_of_newlyUnhealthy {now : ℚ} (h : key ∈ t.newlyUnhealthy now) : (t.step (.sweepTick, now)).Spent key := by
  obtain ⟨old, hold, hexpires⟩ := LeaseTable.mem_newlyUnhealthy.mp h
  intro lease hlease
  rw [LeaseTable.lookup_step, hold] at hlease
  obtain ⟨hmark, -⟩ := Option.filter_eq_some_iff.mp hlease
  obtain rfl := Option.some.inj hmark
  exact Lease.mark_state (.inr hexpires)

theorem LeaseTable.spent_of_revoke (t : LeaseTable κ) (key : κ) (permanent : Bool) (now : ℚ) :
    (t.step (.revoke key permanent, now)).Spent key := by
  intro lease hlease
  rw [LeaseTable.lookup_step] at hlease
  dsimp only at hlease
  rw [if_pos rfl] at hlease
  split at hlease
  · cases hlease
  obtain ⟨old, -, rfl⟩ := Option.map_eq_some_iff.mp hlease
  rfl

theorem LeaseTable.lookup_step_none (h : t.lookup key = none) (he : ¬ e.1.installs key) : (t.step e).lookup key = none := by
  rw [LeaseTable.lookup_step]
  obtain ⟨op, now⟩ := e
  cases op with
  | install key' ttl grace expired => exact (if_neg he).trans h
  | renew | revoke | drop | sweepTick => simp [h]

theorem LeaseTable.lookup_run_none (h : t.lookup key = none) (hes : ∀ e ∈ es, ¬ e.1.installs key) :
    (Lib.run LeaseTable.step t es).lookup key = none := by
  induction es generalizing t with
  | nil => exact h
  | cons e es ih => exact ih (LeaseTable.lookup_step_none h (hes e (by simp))) fun e he => hes e (by simp [he])

theorem LeaseTable.lookup_step_toDelete {now : ℚ} (h : key ∈ t.toDelete now) : (t.step (.sweepTick, now)).lookup key = none := by
  obtain ⟨lease, hlease, hoverdue⟩ := LeaseTable.mem_toDelete.mp h
  rw [LeaseTable.lookup_step, hlease]
  simp [Option.filter, hoverdue]

theorem LeaseTable.lookup_step_of_ne {key' : κ} (he : e.1.key? = some key') (hne : key' ≠ key) :
    (t.step e).lookup key = t.lookup key := by
  rw [LeaseTable.lookup_step]
  obtain ⟨op, now⟩ := e
  cases op with
  | install | renew | revoke | drop =>
    obtain rfl := Option.some.inj he
    exact if_neg hne
  | sweepTick => cases he

theorem LeaseTable.lookup_step_sweep {now : ℚ} (hnew : key ∉ t.newlyUnhealthy now) (hdelete : key ∉ t.toDelete now) :
    (t.step (.sweepTick, now)).lookup key = t.lookup key := by
  rw [LeaseTable.lookup_step]
  cases hlease : t.lookup key with
  | none => rfl
  | some lease =>
    have hexpires : lease.expires now = false := by
      by_contra hexpires
      exact hnew (LeaseTable.mem_newlyUnhealthy.mpr ⟨lease, hlease, by simpa using hexpires⟩)
    have hmark : lease.mark now = lease := by simp [Lease.mark, hexpires]
    have hoverdue : lease.overdue now = false := by
      by_contra hoverdue
      exact hdelete (LeaseTable.mem_toDelete.mpr ⟨lease, hlease, by simpa [hmark] using hoverdue⟩)
    simp [hmark, hoverdue]

end Steps

/-! ## Timing -/

open LeaseTable (after)

theorem LeaseTable.timed_after {es : List (LeaseOp κ × ℚ)} (h : ∀ e ∈ es, e.1.Proper) : (after es).Timed es := by
  induction es using List.reverseRecOn with
  | nil => exact fun key lease hlease => nomatch hlease
  | append_singleton es e ih =>
    have hstep := (ih fun e he => h e (by simp [he])).step (h e (by simp))
    rw [after, run_append]
    exact hstep

structure TimingExact (es : List (LeaseOp κ × ℚ)) : Prop where
  /-- A sweep deletes the keys whose deadline has passed. -/
  deleted : ∀ now key, key ∈ ((after es).sweepTick now).1.2 ↔
    ((after es).lookup key).isSome ∧ ∃ d, due key es = some d ∧ d.deadline ≤ now
  /-- What is deleted is absent until it is installed again. -/
  absent : ∀ pre mid now key, es = pre ++ (.sweepTick, now) :: mid → key ∈ ((after pre).sweepTick now).1.2 →
    (∀ e ∈ mid, ¬ e.1.installs key) → (after es).lookup key = none
  /-- A sweep reports a key once, and not again until it is installed or renewed. -/
  once : ∀ now, ((after es).sweepTick now).1.1.Nodup
  reported : ∀ pre mid now key, es = pre ++ (.sweepTick, now) :: mid → key ∈ ((after pre).sweepTick now).1.1 →
    (∀ e ∈ mid, ¬ e.1.restarts key) → ∀ now', key ∉ ((after es).sweepTick now').1.1
  /-- Nor is it reported after a revocation. -/
  revoked : ∀ pre mid now key permanent, es = pre ++ (.revoke key permanent, now) :: mid →
    (∀ e ∈ mid, ¬ e.1.restarts key) → ∀ now', key ∉ ((after es).sweepTick now').1.1
  /-- A call leaves all keys but its own alone, and a sweep all that it does not report. -/
  others : ∀ op now key key', op.key? = some key' → key' ≠ key →
    (after (es ++ [(op, now)])).lookup key = (after es).lookup key
  unreported : ∀ now key, key ∉ ((after es).sweepTick now).1.1 → key ∉ ((after es).sweepTick now).1.2 →
    (after (es ++ [(.sweepTick, now)])).lookup key = (after es).lookup key

/-- The times of every history are exact. -/
theorem lease_timing (es : List (LeaseOp κ × ℚ)) (h : ∀ e ∈ es, e.1.Proper) : TimingExact es where
  deleted now key := by
    refine LeaseTable.mem_toDelete.trans ⟨?_, ?_⟩
    · rintro ⟨lease, hlease, hoverdue⟩
      obtain ⟨d, hd, hmeets⟩ := LeaseTable.timed_after h key lease hlease
      exact ⟨by simp [hlease], d, hd, (hmeets.overdue_mark now).mp hoverdue⟩
    · rintro ⟨hsome, d, hd, hdue⟩
      obtain ⟨lease, hlease⟩ := Option.isSome_iff_exists.mp hsome
      obtain ⟨d', hd', hmeets⟩ := LeaseTable.timed_after h key lease hlease
      obtain rfl := Option.some.inj (hd.symm.trans hd')
      exact ⟨lease, hlease, (hmeets.overdue_mark now).mpr hdue⟩
  absent pre mid now key hes hkey hmid := by
    rw [hes, after, run_append, run_cons]
    exact LeaseTable.lookup_run_none (LeaseTable.lookup_step_toDelete hkey) hmid
  once now := by
    have hkeys : (((after es).rows.filter fun p => p.2.expires now).map Prod.fst).Sublist ((after es).rows.map Prod.fst) :=
      List.filter_sublist.map _
    exact (after es).nodup.sublist hkeys
  reported pre mid now key hes hkey hmid now' := by
    rw [hes, after, run_append, run_cons]
    exact ((LeaseTable.spent_of_newlyUnhealthy hkey).run hmid).notMem now'
  revoked pre mid now key permanent hes hmid now' := by
    rw [hes, after, run_append, run_cons]
    exact ((LeaseTable.spent_of_revoke _ key permanent now).run hmid).notMem now'
  others op now key key' hkey hne := by
    rw [after, run_append]
    exact LeaseTable.lookup_step_of_ne (e := (op, now)) hkey hne
  unreported now key hnew hdelete := by
    rw [after, run_append]
    exact LeaseTable.lookup_step_sweep hnew hdelete

/-- A lease that is swept once in time, renewed, revoked and swept again at its deadline. -/
def renewedAndRevoked : List (LeaseOp String × ℚ) :=
  [(.install "svc" 10 5 false, 0), (.sweepTick, 12), (.renew "svc", 13), (.revoke "svc" false, 20), (.sweepTick, 25)]

theorem lease_timing_sample :
    TimingExact renewedAndRevoked ∧ due "svc" renewedAndRevoked = some { ttl := 10, grace := 5, deadline := 25 } ∧
      (after renewedAndRevoked).lookup "svc" = none :=
  ⟨lease_timing renewedAndRevoked (by simp [renewedAndRevoked, LeaseOp.Proper]), by decide +kernel, by decide +kernel⟩

end AgentProtocol.Common
